import XbeeAssignment.Messages.Table

/-!
# Lookups over a whole history of `Add`s

The definitions in the table are those of the `Add`s that returned 1, in their order
(`definitions_of_run`), so the lookups find the earliest of them.  Nothing looks for
a key or a name that is there already: the later `Add` is accepted, and what the two
have in common leads to the earlier one.  Every definition accepted is found under
its key and its name exactly if no two of them share one and no key is 0, which
`IsValid` takes for none (`registered_iff`).
-/

namespace XbeeAssignment.Messages

open Transition FirstMatch

/-- The allocator gives what it is asked for. -/
structure Answers.Granted (answers : Answers) : Prop where
  malloc : answers.malloc.isSome
  realloc : answers.realloc.isSome

/-- An allocator that gives what it is asked for, cleared. -/
def Answers.cleared : Answers :=
  { malloc := some fun _ => { key := 0, name := fun _ => 0, highendCanSet := 0 }
    realloc := some fun _ => { key := 0, name := fun _ => 0, highendCanSet := 0 } }

theorem Answers.cleared_granted : Answers.cleared.Granted := ⟨rfl, rfl⟩

namespace Table

variable {table after : Table} {call : Call} {calls : List Call}

/-! ## Runs -/

/-- An `Add` that returned 1. -/
theorem Consistent.extends_of_add (h : table.Consistent) (hadd : table.add call = some (1, after)) :
    Extends table after call.definition := by
  have houtcome := h.add_outcome call
  rw [hadd] at houtcome
  cases houtcome with
  | stored _ _ hextends => exact hextends

/-- An `Add` that returned something else. -/
theorem Consistent.eq_of_add (h : table.Consistent) {result : ℤ}
    (hadd : table.add call = some (result, after)) (hresult : result ≠ 1) : after = table := by
  have houtcome := h.add_outcome call
  rw [hadd] at houtcome
  cases houtcome with
  | refused _ _ => rfl
  | stored _ _ _ => exact absurd rfl hresult

/-- The definitions of the `Add`s that return 1. -/
def accepted (table : Table) : List Call → List Definition
  | [] => []
  | call :: calls =>
      match table.add call with
      | none => []
      | some (result, after) =>
          (if result = 1 then [call.definition] else []) ++ accepted after calls

theorem accepted_cons_of_one (hadd : table.add call = some (1, after)) :
    accepted table (call :: calls) = call.definition :: accepted after calls := by
  rw [accepted, hadd]
  rfl

theorem accepted_cons_of_ne {result : ℤ} (hadd : table.add call = some (result, after))
    (hresult : result ≠ 1) : accepted table (call :: calls) = accepted after calls := by
  rw [accepted, hadd]
  dsimp only
  rw [if_neg hresult, List.nil_append]

theorem Consistent.run (h : table.Consistent) (hrun : Run (StepOf next) table calls after) :
    after.Consistent ∧ after.definitions = table.definitions ++ accepted table calls := by
  induction hrun with
  | nil table => exact ⟨h, (List.append_nil _).symm⟩
  | @cons table middle after call calls hstep _ ih =>
      obtain ⟨⟨result, middle⟩, hadd, rfl⟩ := Option.map_eq_some_iff.mp hstep
      by_cases hresult : result = 1
      · rw [hresult] at hadd
        have hextends := h.extends_of_add hadd
        obtain ⟨hconsistent, hdefinitions⟩ := ih hextends.consistent
        refine ⟨hconsistent, ?_⟩
        rw [hdefinitions, hextends.definitions, accepted_cons_of_one hadd, List.append_assoc]
        rfl
      · obtain rfl := h.eq_of_add hadd hresult
        obtain ⟨hconsistent, hdefinitions⟩ := ih h
        exact ⟨hconsistent, by rw [hdefinitions, accepted_cons_of_ne hadd hresult]⟩

theorem definitions_of_run (hrun : Run (StepOf next) empty calls table) :
    table.definitions = accepted empty calls :=
  (empty_consistent.run hrun).2

/-- The `Add` stores a record, inside the capacity. -/
def Stores (table : Table) (call : Call) (after : Table) : Prop :=
  table.add call = some (1, after) ∧ table.numMessageDef < after.numMessageDefAllocated

theorem Consistent.succeeds (h : table.Consistent) {answers : Answers} (hgranted : answers.Granted)
    (hsize : capacityFor (table.numMessageDef + 1) * sizeofMessageDef < 2 ^ 31) :
    ¬ table.AllocationFails answers := by
  unfold AllocationFails
  cases table.pMessageDef with
  | none => exact Option.isSome_iff_ne_none.mp hgranted.malloc
  | some block =>
      rintro ⟨hfull, hnone | hneg⟩
      · exact Option.isSome_iff_ne_none.mp hgranted.realloc hnone
      · refine h.newSize_nonneg_iff.mpr ?_ hneg
        rw [h.capacity] at hfull ⊢
        rw [← capacityFor_succ_of_full hfull]
        exact hsize

/-- `Add`s whose names fit and whose allocations succeed, as long as `NewSize` does. -/
theorem Consistent.run_granted (h : table.Consistent)
    (hnames : ∀ call ∈ calls, call.definition.name.length < sizeofName)
    (hgranted : ∀ call ∈ calls, call.answers.Granted)
    (hsize : capacityFor (table.numMessageDef + calls.length) * sizeofMessageDef < 2 ^ 31) :
    ∃ after, Run (StepOf next) table calls after ∧ after.Consistent ∧
      after.definitions = table.definitions ++ calls.map Call.definition ∧
      EveryStep (StepOf next) Stores table calls := by
  induction calls generalizing table with
  | nil => exact ⟨table, .nil table, h, (List.append_nil _).symm, everyStep_nil⟩
  | cons call calls ih =>
      rw [List.length_cons, ← Nat.add_assoc, Nat.add_right_comm] at hsize
      have hfirst : capacityFor (table.numMessageDef + 1) * sizeofMessageDef < 2 ^ 31 :=
        lt_of_le_of_lt (Nat.mul_le_mul_right _ (capacityFor_mono (Nat.le_add_right _ _))) hsize
      obtain ⟨stored, hadd, hextends⟩ :=
        h.add_stored (h.succeeds (hgranted call (List.mem_cons_self ..)) hfirst)
          (hnames call (List.mem_cons_self ..))
      have hstep : next table call = some stored := by rw [next, hadd, Option.map_some]
      rw [← hextends.count] at hsize
      obtain ⟨after, hrun, hconsistent, hdefinitions, hevery⟩ :=
        ih hextends.consistent (fun c hc => hnames c (List.mem_cons_of_mem _ hc))
          (fun c hc => hgranted c (List.mem_cons_of_mem _ hc)) hsize
      refine ⟨after, .cons hstep hrun, hconsistent, ?_, everyStep_cons.mpr ?_⟩
      · rw [hdefinitions, hextends.definitions, List.append_assoc]
        rfl
      · intro middle hmiddle
        obtain rfl : stored = middle := Option.some.inj (hstep.symm.trans hmiddle)
        refine ⟨⟨hadd, ?_⟩, hevery⟩
        have hle := le_capacityFor stored.numMessageDef
        rw [← hextends.consistent.capacity, hextends.count] at hle
        exact hle

/-! ## The constructor -/

theorem map_builtinCalls (answers : Definition → Answers) :
    (builtinCalls answers).map Call.definition = builtin := by
  rw [builtinCalls, List.map_map]
  exact List.map_id builtin

theorem builtinCalls_fit {answers : Definition → Answers} :
    ∀ call ∈ builtinCalls answers, call.definition.name.length < sizeofName := by
  intro call hcall
  obtain ⟨definition, hmem, rfl⟩ := List.mem_map.mp hcall
  have hall : ∀ d ∈ builtin, d.name.length < sizeofName := by decide
  exact hall definition hmem

theorem builtinCalls_granted {answers : Definition → Answers}
    (hgranted : ∀ definition, (answers definition).Granted) :
    ∀ call ∈ builtinCalls answers, call.answers.Granted := by
  intro call hcall
  obtain ⟨definition, -, rfl⟩ := List.mem_map.mp hcall
  exact hgranted definition

theorem builtin_keys : (builtin.map Definition.key).Nodup := by decide

theorem builtin_names : (builtin.map Definition.name).Nodup := by decide

theorem run_builtin {answers : Definition → Answers}
    (hgranted : ∀ definition, (answers definition).Granted) :
    ∃ table, Run (StepOf next) empty (builtinCalls answers) table ∧ table.Consistent ∧
      table.definitions = builtin := by
  obtain ⟨table, hrun, hconsistent, hdefinitions, -⟩ :=
    empty_consistent.run_granted builtinCalls_fit (builtinCalls_granted hgranted)
      (show capacityFor (0 + builtin.length) * sizeofMessageDef < 2 ^ 31 by decide)
  rw [map_builtinCalls, definitions_empty, List.nil_append] at hdefinitions
  exact ⟨table, hrun, hconsistent, hdefinitions⟩

/-! ## First match -/

/-- The lookups find the first of the definitions with the key or the name asked for. -/
structure FirstMatches (table : Table) (added : List Definition) : Prop where
  getName : ∀ key, table.getName key = (first Definition.key key added).map Definition.name
  canHighendSet : ∀ key, table.canHighendSet key =
    ((first Definition.key key added).map Definition.highendCanSet).getD 0
  getId : ∀ name, table.getId name =
    ((first Definition.name name added).map Definition.key).getD 0

theorem firstMatches_definitions (table : Table) : FirstMatches table table.definitions :=
  { getName := table.getName_eq
    canHighendSet := table.canHighendSet_eq
    getId := table.getId_eq }

/-- With distinct keys and names, `GetName` and `GetId` are inverse to each other on the pairs
added. -/
theorem FirstMatches.inverse {added : List Definition} (h : FirstMatches table added)
    (hkeys : (added.map Definition.key).Nodup) (hnames : (added.map Definition.name).Nodup)
    {definition : Definition} (hmem : definition ∈ added) :
    table.getName definition.key = some definition.name ∧
      table.getId definition.name = definition.key := by
  constructor
  · rw [h.getName, first_of_nodup hkeys hmem, Option.map_some]
  · rw [h.getId, first_of_nodup hnames hmem, Option.map_some, Option.getD_some]

/-- **First match.**  After any number of `Add`s whose names fit and whose allocations succeed, the
lookups find the earliest of them; every record is stored inside the capacity; and `GetName` and
`GetId` are inverse to each other on the pairs added if keys and names are distinct. -/
theorem lookups_first_match (calls : List Call)
    (hnames : ∀ call ∈ calls, call.definition.name.length < sizeofName)
    (hgranted : ∀ call ∈ calls, call.answers.Granted)
    (hsize : capacityFor calls.length * sizeofMessageDef < 2 ^ 31) :
    ∃ table, Run (StepOf next) empty calls table ∧
      FirstMatches table (calls.map Call.definition) ∧
      EveryStep (StepOf next) Stores empty calls ∧
      (((calls.map Call.definition).map Definition.key).Nodup →
        ((calls.map Call.definition).map Definition.name).Nodup →
        ∀ definition ∈ calls.map Call.definition,
          table.getName definition.key = some definition.name ∧
            table.getId definition.name = definition.key) := by
  rw [← Nat.zero_add calls.length] at hsize
  obtain ⟨table, hrun, -, hdefinitions, hevery⟩ :=
    empty_consistent.run_granted hnames hgranted hsize
  rw [definitions_empty, List.nil_append] at hdefinitions
  have hfirst : FirstMatches table (calls.map Call.definition) :=
    hdefinitions ▸ firstMatches_definitions table
  exact ⟨table, hrun, hfirst, hevery, fun hkeys hdistinct _ hmem =>
    hfirst.inverse hkeys hdistinct hmem⟩

/-- The `Add`s of the constructor, in the course of which the block grows twice. -/
theorem lookups_first_match_builtin :
    ∃ table, Run (StepOf next) empty (builtinCalls fun _ => Answers.cleared) table ∧
      ∀ definition ∈ builtin, table.getName definition.key = some definition.name ∧
        table.getId definition.name = definition.key := by
  have hcalls := map_builtinCalls fun _ => Answers.cleared
  obtain ⟨table, hrun, -, -, hinverse⟩ :=
    lookups_first_match (builtinCalls fun _ => Answers.cleared) builtinCalls_fit
      (builtinCalls_granted fun _ => Answers.cleared_granted) (by decide)
  rw [hcalls] at hinverse
  exact ⟨table, hrun, hinverse builtin_keys builtin_names⟩

/-! ## What an accepted `Add` leaves -/

/-- The lookups give the definition for its key and its name, and both are valid. -/
structure Registered (table : Table) (definition : Definition) : Prop where
  getId : table.getId definition.name = definition.key
  getName : table.getName definition.key = some definition.name
  canHighendSet : table.canHighendSet definition.key = definition.highendCanSet
  isValidKey : table.isValidKey definition.key = 1
  isValidName : table.isValidName definition.name = 1

/-- The earliest definition with the key of this one, which is this one if there was none. -/
def earliest {κ : Type*} [DecidableEq κ] (key : Definition → κ) (added : List Definition)
    (definition : Definition) : Definition :=
  (first key (key definition) added).getD definition

/-- What the lookups for a key give, if this is the first definition with it. -/
theorem lookups_of_first_key {key : Int32} {definition : Definition}
    (hfirst : first Definition.key key table.definitions = some definition) :
    table.getName key = some definition.name ∧
      table.canHighendSet key = definition.highendCanSet ∧ table.isValidKey key = 1 := by
  have hgetName : table.getName key = some definition.name := by
    rw [getName_eq, hfirst, Option.map_some]
  refine ⟨hgetName, ?_, ?_⟩
  · rw [canHighendSet_eq, hfirst, Option.map_some, Option.getD_some]
  · rw [isValidKey, hgetName, Option.isSome_some, if_pos rfl]

/-- What the lookups for a name give. -/
theorem lookups_of_first_name {name : CString} {definition : Definition}
    (hfirst : first Definition.name name table.definitions = some definition) :
    table.getId name = definition.key ∧
      (definition.key ≠ 0 → table.isValidName name = 1) := by
  have hgetId : table.getId name = definition.key := by
    rw [getId_eq, hfirst, Option.map_some, Option.getD_some]
  exact ⟨hgetId, fun hne => by rw [isValidName, hgetId, if_pos hne]⟩

/-- An `Add` that returned 1, and any `Add`s after it. -/
theorem first_after_add {κ : Type*} [DecidableEq κ] (key : Definition → κ)
    {stored : Table} {later : List Call} (h : table.Consistent)
    (hadd : table.add call = some (1, stored)) (hlater : Run (StepOf next) stored later after) :
    first key (key call.definition) after.definitions =
      some (earliest key table.definitions call.definition) := by
  have hextends := h.extends_of_add hadd
  have hmem : call.definition ∈ table.definitions ++ [call.definition] :=
    List.mem_append_right _ (List.mem_singleton_self _)
  rw [(hextends.consistent.run hlater).2, hextends.definitions, first_append_of_mem hmem,
    first_concat]
  rfl

/-- **An accepted `Add`.**  After it, and after any later ones, its key is valid and leads to the
name and the flag of the earliest accepted `Add` with that key, its name leads to the key of the
earliest one with that name, and the name is valid if this key is not 0. -/
theorem accepted_add (before later : List Call) (call : Call) (table stored after : Table)
    (hbefore : Run (StepOf next) empty before table) (hadd : table.add call = some (1, stored))
    (hlater : Run (StepOf next) stored later after) :
    after.isValidKey call.definition.key = 1 ∧
      after.getName call.definition.key =
        some (earliest Definition.key (accepted empty before) call.definition).name ∧
      after.canHighendSet call.definition.key =
        (earliest Definition.key (accepted empty before) call.definition).highendCanSet ∧
      after.getId call.definition.name =
        (earliest Definition.name (accepted empty before) call.definition).key ∧
      ((earliest Definition.name (accepted empty before) call.definition).key ≠ 0 →
        after.isValidName call.definition.name = 1) := by
  have hconsistent := (empty_consistent.run hbefore).1
  have hkey := first_after_add Definition.key hconsistent hadd hlater
  have hname := first_after_add Definition.name hconsistent hadd hlater
  rw [definitions_of_run hbefore] at hkey hname
  obtain ⟨hgetName, hflag, hvalidKey⟩ := lookups_of_first_key hkey
  obtain ⟨hgetId, hvalidName⟩ := lookups_of_first_name hname
  exact ⟨hvalidKey, hgetName, hflag, hgetId, hvalidName⟩

/-- The key of `ACTION_START` with another name. -/
def restart : Call :=
  { definition := { key := 100, name := .literal "START", highendCanSet := 1 }
    answers := Answers.cleared }

theorem exists_restart :
    ∃ table stored, Run (StepOf next) empty (builtinCalls fun _ => Answers.cleared) table ∧
      table.definitions = builtin ∧ table.add restart = some (1, stored) ∧
      stored.definitions = builtin ++ [restart.definition] := by
  obtain ⟨table, hrun, hconsistent, hdefinitions⟩ :=
    run_builtin fun _ => Answers.cleared_granted
  have hcount := hconsistent.length_definitions
  rw [hdefinitions] at hcount
  have hsucceeds : ¬ table.AllocationFails restart.answers :=
    hconsistent.succeeds Answers.cleared_granted (by rw [← hcount]; decide)
  obtain ⟨stored, hadd, hextends⟩ := hconsistent.add_stored hsucceeds (by decide)
  exact ⟨table, stored, hrun, hdefinitions, hadd, hdefinitions ▸ hextends.definitions⟩

/-- The `Add` returns 1, and the key leads to the name it had. -/
theorem accepted_add_restart :
    ∃ stored : Table, stored.isValidKey 100 = 1 ∧
      stored.getName 100 = some (.literal "ACTION_START") ∧
      stored.getId (.literal "START") = 100 ∧ stored.isValidName (.literal "START") = 1 := by
  obtain ⟨table, stored, hrun, hdefinitions, hadd, -⟩ := exists_restart
  obtain ⟨hvalid, hname, -, hid, hvalidName⟩ :=
    accepted_add _ [] restart table stored stored hrun hadd (.nil stored)
  rw [definitions_of_run hrun] at hdefinitions
  rw [hdefinitions] at hname hid hvalidName
  exact ⟨stored, hvalid, hname.trans (by decide), hid.trans (by decide), hvalidName (by decide)⟩

/-- So the definition that has been accepted is not found. -/
theorem not_registered_restart :
    ∃ table stored, Run (StepOf next) empty (builtinCalls fun _ => Answers.cleared) table ∧
      (∀ call ∈ (builtinCalls fun _ => Answers.cleared) ++ [restart],
        call.definition.name.length < sizeofName) ∧
      table.add restart = some (1, stored) ∧ ¬ Registered stored restart.definition := by
  obtain ⟨table, stored, hrun, -, hadd, hdefinitions⟩ := exists_restart
  refine ⟨table, stored, hrun, fun call hcall => ?_, hadd, fun hregistered => ?_⟩
  · rcases List.mem_append.mp hcall with hbuiltin | hrestart
    · exact builtinCalls_fit call hbuiltin
    · rw [List.mem_singleton.mp hrestart]
      decide
  · have hname := hregistered.getName
    rw [getName_eq, hdefinitions] at hname
    exact absurd hname (by decide)

/-! ## Histories all of which is found -/

/-- No key is 0, and no two definitions share a key or a name. -/
def Coherent (added : List Definition) : Prop :=
  ∀ d ∈ added, d.key ≠ 0 ∧ ∀ e ∈ added, e.key = d.key ∨ e.name = d.name → e = d

theorem coherent_of_nodup {added : List Definition} (hne : ∀ d ∈ added, d.key ≠ 0)
    (hkeys : (added.map Definition.key).Nodup) (hnames : (added.map Definition.name).Nodup) :
    Coherent added := by
  intro d hd
  refine ⟨hne d hd, fun e he hsame => ?_⟩
  rcases hsame with hkey | hname
  · exact List.inj_on_of_nodup_map hkeys he hd hkey
  · exact List.inj_on_of_nodup_map hnames he hd hname

theorem registered_of_first {definition : Definition}
    (hkey : first Definition.key definition.key table.definitions = some definition)
    (hname : first Definition.name definition.name table.definitions = some definition)
    (hne : definition.key ≠ 0) : Registered table definition := by
  obtain ⟨hgetName, hflag, hvalidKey⟩ := lookups_of_first_key hkey
  obtain ⟨hgetId, hvalidName⟩ := lookups_of_first_name hname
  exact
    { getId := hgetId
      getName := hgetName
      canHighendSet := hflag
      isValidKey := hvalidKey
      isValidName := hvalidName hne }

theorem Registered.key_ne_zero {definition : Definition} (h : Registered table definition) :
    definition.key ≠ 0 := by
  intro hzero
  have hvalid := h.isValidName
  rw [Table.isValidName, h.getId, hzero, if_neg (not_not.mpr rfl)] at hvalid
  exact absurd hvalid (by decide)

/-- Two definitions found under one key are the same. -/
theorem Registered.eq_of_key {d e : Definition} (hd : Registered table d)
    (he : Registered table e) (hkey : e.key = d.key) : e = d := by
  have hname := he.getName
  have hflag := he.canHighendSet
  rw [hkey, hd.getName] at hname
  rw [hkey, hd.canHighendSet] at hflag
  rw [Definition.ext_iff]
  exact ⟨hkey, (Option.some.inj hname).symm, hflag.symm⟩

theorem Registered.eq_of_name {d e : Definition} (hd : Registered table d)
    (he : Registered table e) (hname : e.name = d.name) : e = d := by
  have hkey := he.getId
  rw [hname, hd.getId] at hkey
  exact hd.eq_of_key he hkey.symm

/-- All the definitions in the table are found exactly if they are coherent. -/
theorem registered_definitions_iff (table : Table) :
    (∀ d ∈ table.definitions, Registered table d) ↔ Coherent table.definitions := by
  constructor
  · intro hall d hd
    refine ⟨(hall d hd).key_ne_zero, fun e he hsame => ?_⟩
    rcases hsame with hkey | hname
    · exact (hall d hd).eq_of_key (hall e he) hkey
    · exact (hall d hd).eq_of_name (hall e he) hname
  · intro hcoherent d hd
    obtain ⟨hne, hunique⟩ := hcoherent d hd
    exact registered_of_first (first_of_unique hd fun e he hkey => hunique e he (.inl hkey))
      (first_of_unique hd fun e he hname => hunique e he (.inr hname)) hne

/-- Every definition accepted in a run is found under its key and its name exactly if no key is 0
and no two of them share a key or a name. -/
theorem registered_iff (hrun : Run (StepOf next) empty calls table) :
    (∀ d ∈ accepted empty calls, Registered table d) ↔ Coherent (accepted empty calls) := by
  rw [← definitions_of_run hrun]
  exact registered_definitions_iff table

/-- The first object constructed finds all the definitions of the constructor. -/
theorem construct_registered {answers : Definition → Answers}
    (hgranted : ∀ definition, (answers definition).Granted) {statics : Statics}
    (hfirst : statics.initialized = false) :
    ∃ table, construct answers statics = some { initialized := true, table := table } ∧
      ∀ definition ∈ builtin, Registered table definition := by
  obtain ⟨table, hrun, -, hdefinitions⟩ := run_builtin hgranted
  refine ⟨table, ?_, ?_⟩
  · rw [construct, hfirst, if_neg Bool.false_ne_true, run_iff_exec.mp hrun, Option.map_some]
  · rw [← hdefinitions, registered_definitions_iff, hdefinitions]
    exact coherent_of_nodup (by decide) builtin_keys builtin_names

end Table

end XbeeAssignment.Messages
