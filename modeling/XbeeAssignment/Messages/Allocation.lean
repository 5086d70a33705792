import XbeeAssignment.Messages.Lookups

/-!
# Allocations that fail

`Add` looks at what `realloc` answers and leaves the old table alone if it is null;
it does not look at what `malloc` answers.  If the first block is refused, the
capacity is set to ten records all the same, and the record is stored at the null
pointer.

So a process that adds definitions is a table, or nothing from the moment on when
its behaviour is undefined, and every `Add` in it is atomic exactly if every one is
`Storable` (`atomic_iff`).  For names that fit this is one condition on the first
`Add` of all (`storable_iff_of_fit`).
-/

namespace XbeeAssignment.Messages.Table

open Transition

variable {table after : Table} {call : Call} {calls : List Call}

/-- A refused `Add` returns 0 and changes nothing; any other one returns 1 and appends its
definition. -/
structure Atomic (table : Table) (call : Call) : Prop where
  fails : table.AllocationFails call.answers → table.add call = some (0, table)
  succeeds : ¬ table.AllocationFails call.answers →
    ∃ stored, table.add call = some (1, stored) ∧ Extends table stored call.definition

/-- The first block is there or is granted, and a name that is going to be stored fits. -/
structure Storable (table : Table) (call : Call) : Prop where
  block : table.pMessageDef = none → call.answers.malloc.isSome
  fits : ¬ table.AllocationFails call.answers → call.definition.name.length < sizeofName

/-- An `Add` in a process, which has no table once its behaviour is undefined. -/
def processNext (process : Option Table) (call : Call) : Option (Option Table) :=
  some (process.bind fun table => next table call)

/-- The process has a table for which this holds. -/
def Running (P : Table → Call → Prop) (process : Option Table) (call : Call) : Prop :=
  ∃ table, process = some table ∧ P table call

/-- It does in every `Add` of the process that starts with this table. -/
def Throughout (P : Table → Call → Prop) (table : Table) (calls : List Call) : Prop :=
  EveryStep (StepOf processNext) (fun process call _ => Running P process call) (some table) calls

theorem allocationFails_of_none {answers : Answers} (hblock : table.pMessageDef = none) :
    table.AllocationFails answers ↔ answers.malloc = none := by
  rw [AllocationFails, hblock]

theorem Consistent.atomic_iff_storable (h : table.Consistent) :
    Atomic table call ↔ Storable table call := by
  have houtcome := h.add_outcome call
  generalize hadd : table.add call = outcome at houtcome
  cases houtcome with
  | refused hfails hblock =>
      refine iff_of_true ?_ ?_
      · exact { fails := fun _ => hadd, succeeds := fun hsucceeds => absurd hfails hsucceeds }
      · exact
          { block := fun hnone => absurd hnone hblock
            fits := fun hsucceeds => absurd hfails hsucceeds }
  | nullPointer hfails hblock =>
      refine iff_of_false (fun hatomic => ?_) (fun hstorable => ?_)
      · exact nomatch hadd.symm.trans (hatomic.fails hfails)
      · have hmalloc := (allocationFails_of_none hblock).mp hfails
        exact Option.isSome_iff_ne_none.mp (hstorable.block hblock) hmalloc
  | overrun hsucceeds hlong =>
      refine iff_of_false (fun hatomic => ?_) (fun hstorable => ?_)
      · obtain ⟨stored, hstored, -⟩ := hatomic.succeeds hsucceeds
        exact nomatch hadd.symm.trans hstored
      · exact absurd (hstorable.fits hsucceeds) (not_lt.mpr hlong)
  | @stored stored hsucceeds hfits hextends =>
      refine iff_of_true ?_ ?_
      · exact
          { fails := fun hfails => absurd hfails hsucceeds
            succeeds := fun _ => ⟨stored, hadd, hextends⟩ }
      · exact
          { block := fun hblock => Option.isSome_iff_ne_none.mpr fun hmalloc =>
              hsucceeds ((allocationFails_of_none hblock).mpr hmalloc)
            fits := fun _ => hfits }

/-- An atomic `Add` leaves a table. -/
theorem Atomic.next_cases (h : Atomic table call) :
    next table call = some table ∨
      ∃ stored, next table call = some stored ∧ Extends table stored call.definition := by
  by_cases hfails : table.AllocationFails call.answers
  · exact .inl (by rw [next, h.fails hfails, Option.map_some])
  · obtain ⟨stored, hadd, hextends⟩ := h.succeeds hfails
    exact .inr ⟨stored, by rw [next, hadd, Option.map_some], hextends⟩

/-- The process has a consistent table. -/
def Sound (process : Option Table) : Prop :=
  ∃ table, process = some table ∧ table.Consistent

theorem Sound.step {process process' : Option Table} (h : Sound process)
    (hstorable : Running Storable process call)
    (hstep : StepOf processNext process call process') : Sound process' := by
  obtain ⟨table, rfl, hconsistent⟩ := h
  obtain ⟨_, ⟨rfl⟩, hcall⟩ := hstorable
  obtain rfl : next table call = process' := Option.some.inj hstep
  rcases (hconsistent.atomic_iff_storable.mpr hcall).next_cases with
    hnext | ⟨stored, hnext, hextends⟩
  · exact ⟨table, hnext, hconsistent⟩
  · exact ⟨stored, hnext, hextends.consistent⟩

/-- **Atomicity.**  Whatever the allocator answers, every `Add` of a process is atomic if and only
if every one is storable. -/
theorem atomic_iff (calls : List Call) :
    Throughout Atomic empty calls ↔ Throughout Storable empty calls := by
  apply everyStep_iff_of_invariant Sound
  · intro process call process' hsound hstorable hstep
    exact hsound.step hstorable hstep
  · rintro process call process' ⟨table, rfl, hconsistent⟩ -
    constructor
    · rintro ⟨_, ⟨rfl⟩, hatomic⟩
      exact ⟨table, rfl, hconsistent.atomic_iff_storable.mp hatomic⟩
    · rintro ⟨_, ⟨rfl⟩, hstorable⟩
      exact ⟨table, rfl, hconsistent.atomic_iff_storable.mpr hstorable⟩
  · exact ⟨empty, rfl, empty_consistent⟩

/-- The first `Add` of the constructor, with the block refused. -/
def refusedStart : Call :=
  { definition := { key := 100, name := .literal "ACTION_START", highendCanSet := 1 }
    answers := { malloc := none, realloc := none } }

/-- It stores its record at the null pointer. -/
theorem not_atomic_first : ¬ Throughout Atomic empty [refusedStart] := by
  intro hthroughout
  obtain ⟨_, ⟨rfl⟩, hatomic⟩ := hthroughout [] [] _ _ _ rfl (.nil _) rfl
  have hadd : empty.add refusedStart = none := rfl
  exact nomatch hadd.symm.trans (hatomic.fails rfl)

/-! ## Names that fit -/

theorem Extends.pMessageDef_ne {definition : Definition}
    (h : Extends table after definition) : after.pMessageDef ≠ none := by
  intro hblock
  have hdefinitions := h.definitions
  rw [definitions_of_none hblock] at hdefinitions
  exact absurd hdefinitions.symm (List.append_ne_nil_of_right_ne_nil _ (List.cons_ne_nil _ _))

/-- Once there is a block, every `Add` of a name that fits is storable. -/
theorem storable_of_block (hconsistent : table.Consistent) (hblock : table.pMessageDef ≠ none)
    (hfit : ∀ call ∈ calls, call.definition.name.length < sizeofName) :
    Throughout Storable table calls := by
  induction calls generalizing table with
  | nil => exact everyStep_nil
  | cons call calls ih =>
      have hrest : ∀ c ∈ calls, c.definition.name.length < sizeofName :=
        fun c hc => hfit c (List.mem_cons_of_mem _ hc)
      have hstorable : Storable table call :=
        { block := fun hnone => absurd hnone hblock
          fits := fun _ => hfit call (List.mem_cons_self ..) }
      refine everyStep_cons.mpr fun process hstep => ⟨⟨table, rfl, hstorable⟩, ?_⟩
      obtain rfl : next table call = process := Option.some.inj hstep
      rcases (hconsistent.atomic_iff_storable.mpr hstorable).next_cases with
        hnext | ⟨stored, hnext, hextends⟩
      · rw [hnext]
        exact ih hconsistent hblock hrest
      · rw [hnext]
        exact ih hextends.consistent hextends.pMessageDef_ne hrest

/-- For names that fit, everything depends on what `malloc` answers in the first `Add` of all. -/
theorem storable_iff_of_fit (hfit : ∀ call ∈ calls, call.definition.name.length < sizeofName) :
    Throughout Storable empty calls ↔ ∀ call ∈ calls.head?, call.answers.malloc.isSome := by
  cases calls with
  | nil => exact iff_of_true everyStep_nil (by simp)
  | cons call calls =>
      constructor
      · intro hevery c hc
        obtain rfl : call = c := Option.some.inj hc
        obtain ⟨⟨_, ⟨rfl⟩, hstorable⟩, -⟩ := everyStep_cons.mp hevery _ rfl
        exact hstorable.block rfl
      · intro hgranted
        have hstorable : Storable empty call :=
          { block := fun _ => hgranted call rfl
            fits := fun _ => hfit call (List.mem_cons_self ..) }
        refine everyStep_cons.mpr fun process hstep => ⟨⟨empty, rfl, hstorable⟩, ?_⟩
        obtain rfl : next empty call = process := Option.some.inj hstep
        have hsucceeds : ¬ empty.AllocationFails call.answers :=
          fun hfails => Option.isSome_iff_ne_none.mp (hgranted call rfl) hfails
        obtain ⟨stored, hadd, hextends⟩ :=
          (empty_consistent.atomic_iff_storable.mpr hstorable).succeeds hsucceeds
        have hnext : next empty call = some stored := by rw [next, hadd, Option.map_some]
        rw [hnext]
        exact storable_of_block hextends.consistent hextends.pMessageDef_ne
          fun c hc => hfit c (List.mem_cons_of_mem _ hc)

end XbeeAssignment.Messages.Table
