import XbeeAssignment.Lib.CString
import XbeeAssignment.Lib.Transition
import XbeeAssignment.Lib.FirstMatch
import Mathlib.Algebra.Ring.Nat

/-!
# `MessageDef`: the table of message definitions

The table is a block of records that `Add` fills from the front and lets grow by
ten records at a time; the lookups search it from the front.  What the allocator
answers in an `Add` is part of the call, and so is what the memory it hands out
holds.

* An `Add` whose behaviour is undefined has no result: it stores its record at a
  null pointer or outside the block, or a name that does not fit.
* `NewSize` is an `int`.  A size that became negative is more than any object can
  have, once it is converted to `size_t`, and is refused.
* The counts are natural numbers: the size of the block is below 2³¹ and bounds
  both of them (`Consistent`).

For its users the table is the list of the definitions stored, `definitions`.
`add_cases` says what one `Add` does to it, and `getName_eq`, `getId_eq` and
`canHighendSet_eq` that the three searches find the first match in it.
-/

namespace XbeeAssignment.Messages

open Memory Transition FirstMatch

/-! ## Data -/

/-- `struct _MessageDef`. -/
structure MessageDef where
  key : Int32
  name : ℕ → UInt8
  highendCanSet : Int32

/-- The size of the array `name`. -/
def sizeofName : ℕ := 256

/-- `sizeof(struct _MessageDef)`. -/
def sizeofMessageDef : ℕ := 264

/-- A block of memory for records, and its size in bytes. -/
structure Block where
  size : ℕ
  records : ℕ → MessageDef

/-- The static members the table is made of. -/
structure Table where
  pMessageDef : Option Block
  numMessageDef : ℕ
  numMessageDefAllocated : ℕ

/-- The arguments of an `Add`. -/
@[ext]
structure Definition where
  key : Int32
  name : CString
  highendCanSet : Int32
  deriving DecidableEq

/-- What `malloc` and `realloc` answer if they are asked: null, or what the new memory holds. -/
structure Answers where
  malloc : Option (ℕ → MessageDef)
  realloc : Option (ℕ → MessageDef)

/-- An `Add` with the answers of the allocator. -/
structure Call where
  definition : Definition
  answers : Answers

namespace Table

/-- The table the constructor starts from. -/
def empty : Table := { pMessageDef := none, numMessageDef := 0, numMessageDefAllocated := 0 }

/-! ## `Add` -/

/-- The first block, if there is none. -/
def allocate (table : Table) (answers : Answers) : Table :=
  match table.pMessageDef with
  | some _ => table
  | none =>
      { table with
        pMessageDef := answers.malloc.map fun records =>
          { size := 10 * sizeofMessageDef, records := records }
        numMessageDefAllocated := 10 }

/-- `NewSize`. -/
def newSize (table : Table) : Int32 :=
  Int32.ofNat ((table.numMessageDefAllocated + 10) * sizeofMessageDef)

/-- The block of `NewSize` bytes: the records that were in the old block are kept. -/
def reallocated (table : Table) (fresh : ℕ → MessageDef) : Block :=
  { size := table.newSize.toNatClampNeg
    records := fun i =>
      match table.pMessageDef with
      | some block => if (i + 1) * sizeofMessageDef ≤ block.size then block.records i else fresh i
      | none => fresh i }

/-- `realloc` of the block to `NewSize`. -/
def realloc (table : Table) (answers : Answers) : Option Block :=
  if table.newSize < 0 then none else answers.realloc.map table.reallocated

/-- Room for one more record, or nothing if `realloc` fails. -/
def grow (table : Table) (answers : Answers) : Option Table :=
  if table.numMessageDefAllocated ≤ table.numMessageDef then
    (table.realloc answers).map fun block =>
      { table with
        pMessageDef := some block
        numMessageDefAllocated := table.numMessageDefAllocated + 10 }
  else some table

/-- The record a definition is stored in, over what was in memory there. -/
def record (memory : MessageDef) (definition : Definition) : MessageDef :=
  { key := definition.key
    name := CString.strcpy memory.name definition.name
    highendCanSet := definition.highendCanSet }

/-- The new record, or nothing if it is not inside the block or its name too long. -/
def store (table : Table) (definition : Definition) : Option Table :=
  match table.pMessageDef with
  | none => none
  | some block =>
      if (table.numMessageDef + 1) * sizeofMessageDef ≤ block.size ∧
          definition.name.length < sizeofName then
        some
          { table with
            pMessageDef := some
              { block with
                records := blit block.records table.numMessageDef
                  [record (block.records table.numMessageDef) definition] }
            numMessageDef := table.numMessageDef + 1 }
      else none

/-- `Add`: what it returns and the table it leaves. -/
def add (table : Table) (call : Call) : Option (ℤ × Table) :=
  match (table.allocate call.answers).grow call.answers with
  | none => some (0, table.allocate call.answers)
  | some grown => (grown.store call.definition).map fun stored => (1, stored)

/-- The table after an `Add`. -/
def next (table : Table) (call : Call) : Option Table :=
  (table.add call).map Prod.snd

/-! ## The constructor -/

/-- The static members. -/
structure Statics where
  initialized : Bool
  table : Table

/-- The definitions the constructor adds. -/
def builtin : List Definition :=
  [ { key := 100, name := .literal "ACTION_START", highendCanSet := 1 },
    { key := 101, name := .literal "ACTION_STOP", highendCanSet := 1 },
    { key := 102, name := .literal "ACTION_PAUSE", highendCanSet := 1 },
    { key := 103, name := .literal "ACTION_KEY_F1", highendCanSet := 1 },
    { key := 104, name := .literal "ACTION_KEY_F2", highendCanSet := 1 },
    { key := 105, name := .literal "ACTION_KEY_F3", highendCanSet := 1 },
    { key := 106, name := .literal "ACTION_KEY_F4", highendCanSet := 1 },
    { key := 107, name := .literal "ACTION_KEY_UP", highendCanSet := 1 },
    { key := 108, name := .literal "ACTION_KEY_DOWN", highendCanSet := 1 },
    { key := 109, name := .literal "ACTION_KEY_ENTER", highendCanSet := 1 },
    { key := 110, name := .literal "ACTION_KEY_ESC", highendCanSet := 1 },
    { key := 1000, name := .literal "MOTOR_SET_RPM", highendCanSet := 1 },
    { key := 1001, name := .literal "FIRMWARE_REV", highendCanSet := 0 },
    { key := 1002, name := .literal "BSP_REV", highendCanSet := 0 },
    { key := 1003, name := .literal "COVER_STATE", highendCanSet := 0 },
    { key := 1004, name := .literal "IP_ADDRESS_ETH0", highendCanSet := 0 },
    { key := 1005, name := .literal "IP_ADDRESS_ETH1", highendCanSet := 0 },
    { key := 1006, name := .literal "UPPER_AIR_OUT_VALVE", highendCanSet := 0 },
    { key := 1007, name := .literal "UPPER_AIR_IN_VALVE", highendCanSet := 0 },
    { key := 1008, name := .literal "AC_MOTOR_ACTUAL_SPEED", highendCanSet := 0 },
    { key := 1009, name := .literal "AC_MOTOR_ACTUAL_CURRENT", highendCanSet := 0 },
    { key := 1010, name := .literal "E_STOP_STATE", highendCanSet := 0 } ]

/-- The `Add`s of the constructor. -/
def builtinCalls (answers : Definition → Answers) : List Call :=
  builtin.map fun definition => { definition := definition, answers := answers definition }

/-- The constructor, which fills the table in its first call only. -/
def construct (answers : Definition → Answers) (statics : Statics) : Option Statics :=
  if statics.initialized then some statics
  else
    (exec next empty (builtinCalls answers)).map fun table =>
      { initialized := true, table := table }

/-! ## Lookups -/

/-- The loop of the lookups: of so many records from the `i`-th on, the first that passes the
test. -/
def search (records : ℕ → MessageDef) (test : MessageDef → Bool) (i : ℕ) :
    ℕ → Option MessageDef
  | 0 => none
  | left + 1 => if test (records i) then some (records i) else search records test (i + 1) left

/-- The record a lookup finds.  Without a block there are no records to look at. -/
def find (table : Table) (test : MessageDef → Bool) : Option MessageDef :=
  match table.pMessageDef with
  | none => none
  | some block => search block.records test 0 table.numMessageDef

/-- `GetName`, as the string the pointer leads to. -/
def getName (table : Table) (key : Int32) : Option CString :=
  (table.find fun r => r.key = key).map fun r => CString.read r.name sizeofName

/-- `GetId`. -/
def getId (table : Table) (name : CString) : Int32 :=
  ((table.find fun r => CString.strcmp (CString.read r.name sizeofName) name = 0).map
    MessageDef.key).getD 0

/-- `CanHighendSet`. -/
def canHighendSet (table : Table) (key : Int32) : Int32 :=
  ((table.find fun r => r.key = key).map MessageDef.highendCanSet).getD 0

/-- `IsValid` of a name. -/
def isValidName (table : Table) (name : CString) : ℤ :=
  if table.getId name ≠ 0 then 1 else 0

/-- `IsValid` of a key. -/
def isValidKey (table : Table) (key : Int32) : ℤ :=
  if (table.getName key).isSome then 1 else 0

/-! ## The definitions in the table -/

/-- The definition a record holds. -/
def definitionOf (r : MessageDef) : Definition :=
  { key := r.key
    name := CString.read r.name sizeofName
    highendCanSet := r.highendCanSet }

/-- The definitions stored, in the order of the `Add`s. -/
def definitions (table : Table) : List Definition :=
  match table.pMessageDef with
  | none => []
  | some block => (slice block.records 0 table.numMessageDef).map definitionOf

/-- The capacity for so many records: as many, rounded up to tens. -/
def capacityFor (count : ℕ) : ℕ := 10 * ((count + 9) / 10)

/-- The counts and the block fit together. -/
structure Consistent (table : Table) : Prop where
  capacity : table.numMessageDefAllocated = capacityFor table.numMessageDef
  block : ∀ b, table.pMessageDef = some b →
    b.size = table.numMessageDefAllocated * sizeofMessageDef
  no_block : table.pMessageDef = none → table.numMessageDef = 0
  bounded : table.numMessageDefAllocated * sizeofMessageDef < 2 ^ 31

/-- The allocation an `Add` asks for, if any, fails. -/
def AllocationFails (table : Table) (answers : Answers) : Prop :=
  match table.pMessageDef with
  | none => answers.malloc = none
  | some _ => table.numMessageDefAllocated ≤ table.numMessageDef ∧
      (answers.realloc = none ∨ table.newSize < 0)

theorem empty_consistent : empty.Consistent :=
  { capacity := rfl
    block := nofun
    no_block := fun _ => rfl
    bounded := by decide }

theorem definitions_empty : empty.definitions = [] := rfl

theorem definitions_of_none {table : Table} (hblock : table.pMessageDef = none) :
    table.definitions = [] := by
  rw [definitions, hblock]

theorem definitions_of_some {table : Table} {block : Block}
    (hblock : table.pMessageDef = some block) :
    table.definitions = (slice block.records 0 table.numMessageDef).map definitionOf := by
  rw [definitions, hblock]

theorem Consistent.length_definitions {table : Table} (h : table.Consistent) :
    table.definitions.length = table.numMessageDef := by
  cases hblock : table.pMessageDef with
  | none => rw [definitions_of_none hblock, h.no_block hblock, List.length_nil]
  | some block => rw [definitions_of_some hblock, List.length_map, length_slice]

/-! ## What the lookups find -/

theorem search_eq (records : ℕ → MessageDef) (test : MessageDef → Bool) (i left : ℕ) :
    search records test i left = (slice records i left).find? test := by
  induction left generalizing i with
  | zero => rfl
  | succ left ih =>
      rw [search, slice_succ, List.find?_cons, ih]
      cases test (records i) <;> rfl

/-- A test of the definition a record holds finds the first one of the table that passes it. -/
theorem find_eq (table : Table) (test : Definition → Bool) :
    (table.find fun r => test (definitionOf r)).map definitionOf =
      table.definitions.find? test := by
  unfold find definitions
  cases table.pMessageDef with
  | none => rfl
  | some block =>
      dsimp only
      rw [search_eq, List.find?_map]
      rfl

theorem getName_eq (table : Table) (key : Int32) :
    table.getName key = (first Definition.key key table.definitions).map Definition.name := by
  rw [first, ← find_eq, Option.map_map]
  rfl

theorem canHighendSet_eq (table : Table) (key : Int32) :
    table.canHighendSet key =
      ((first Definition.key key table.definitions).map Definition.highendCanSet).getD 0 := by
  rw [first, ← find_eq, Option.map_map]
  rfl

theorem getId_eq (table : Table) (name : CString) :
    table.getId name =
      ((first Definition.name name table.definitions).map Definition.key).getD 0 := by
  rw [first, ← find_eq, Option.map_map, getId]
  simp only [CString.strcmp_eq_zero_iff]
  rfl

/-! ## What an `Add` does -/

variable {table : Table} {call : Call}

theorem le_capacityFor (count : ℕ) : count ≤ capacityFor count := by
  unfold capacityFor
  omega

theorem capacityFor_mono {count count' : ℕ} (hle : count ≤ count') :
    capacityFor count ≤ capacityFor count' := by
  unfold capacityFor
  omega

theorem capacityFor_succ_of_full {count : ℕ} (hfull : capacityFor count ≤ count) :
    capacityFor (count + 1) = capacityFor count + 10 := by
  unfold capacityFor at *
  omega

theorem capacityFor_succ_of_lt {count : ℕ} (hlt : count < capacityFor count) :
    capacityFor (count + 1) = capacityFor count := by
  unfold capacityFor at *
  omega

/-- A size below 2³² as an `int`. -/
theorem ofNat_nonneg_iff {size : ℕ} (hlt : size < 2 ^ 32) :
    ¬ Int32.ofNat size < 0 ↔ size < 2 ^ 31 := by
  have hsize : (Int32.size : ℤ) = 2 ^ 32 := rfl
  rw [Int32.lt_iff_toInt_lt, Int32.toInt_ofNat', Int.bmod_eq_emod, hsize, Int32.toInt_zero]
  split <;> omega

/-- `NewSize` is not negative exactly if the block is smaller than 2³¹ bytes. -/
theorem Consistent.newSize_nonneg_iff (h : table.Consistent) :
    ¬ table.newSize < 0 ↔
      (table.numMessageDefAllocated + 10) * sizeofMessageDef < 2 ^ 31 := by
  have hlt : (table.numMessageDefAllocated + 10) * sizeofMessageDef < 2 ^ 32 := by
    calc (table.numMessageDefAllocated + 10) * sizeofMessageDef
        = table.numMessageDefAllocated * sizeofMessageDef + 10 * sizeofMessageDef :=
          Nat.add_mul ..
      _ < 2 ^ 31 + 10 * sizeofMessageDef := Nat.add_lt_add_right h.bounded _
      _ < 2 ^ 32 := by decide
  rw [newSize, ofNat_nonneg_iff hlt]

theorem Consistent.toNat_newSize (h : table.Consistent) (hnonneg : ¬ table.newSize < 0) :
    table.newSize.toNatClampNeg = (table.numMessageDefAllocated + 10) * sizeofMessageDef := by
  have hfits := h.newSize_nonneg_iff.mp hnonneg
  rw [newSize, Int32.toNatClampNeg, Int32.toInt_ofNat_of_lt hfits, Int.toNat_natCast]

/-- There is room in the block for one more record than the table has. -/
structure Room (table grown : Table) (block : Block) : Prop where
  pMessageDef : grown.pMessageDef = some block
  count : grown.numMessageDef = table.numMessageDef
  capacity : grown.numMessageDefAllocated = capacityFor (table.numMessageDef + 1)
  size : block.size = grown.numMessageDefAllocated * sizeofMessageDef
  bounded : grown.numMessageDefAllocated * sizeofMessageDef < 2 ^ 31
  records : (slice block.records 0 table.numMessageDef).map definitionOf = table.definitions

/-- The table has one more definition, at its end. -/
structure Extends (table stored : Table) (definition : Definition) : Prop where
  consistent : stored.Consistent
  count : stored.numMessageDef = table.numMessageDef + 1
  definitions : stored.definitions = table.definitions ++ [definition]

theorem allocate_of_some {block : Block} (hblock : table.pMessageDef = some block)
    (answers : Answers) : table.allocate answers = table := by
  rw [allocate, hblock]

/-- The first block. -/
theorem Consistent.room_of_none (h : table.Consistent) {answers : Answers}
    {records : ℕ → MessageDef} (hblock : table.pMessageDef = none)
    (hmalloc : answers.malloc = some records) :
    ∃ grown block, (table.allocate answers).grow answers = some grown ∧
      Room table grown block := by
  have hcount := h.no_block hblock
  have hallocate : table.allocate answers =
      { pMessageDef := some { size := 10 * sizeofMessageDef, records := records }
        numMessageDef := 0
        numMessageDefAllocated := 10 } := by
    rw [allocate, hblock, hmalloc, hcount]
    rfl
  have hgrow : (table.allocate answers).grow answers = some (table.allocate answers) := by
    rw [hallocate]
    rfl
  rw [hallocate] at hgrow ⊢
  refine ⟨_, { size := 10 * sizeofMessageDef, records := records }, hgrow, ?_⟩
  refine
    { pMessageDef := rfl
      count := hcount.symm
      capacity := by
        rw [hcount]
        rfl
      size := rfl
      bounded := show 10 * sizeofMessageDef < 2 ^ 31 by decide
      records := ?_ }
  rw [hcount, definitions_of_none hblock]
  rfl

/-- A block that was full, and has grown. -/
theorem Consistent.room_of_full (h : table.Consistent) {answers : Answers} {block : Block}
    {fresh : ℕ → MessageDef} (hblock : table.pMessageDef = some block)
    (hfull : table.numMessageDefAllocated ≤ table.numMessageDef)
    (hrealloc : answers.realloc = some fresh) (hnonneg : ¬ table.newSize < 0) :
    ∃ grown block, table.grow answers = some grown ∧ Room table grown block := by
  have hcapacity := h.capacity
  have hsize := h.block block hblock
  have hgrow : table.grow answers =
      some { table with
        pMessageDef := some (table.reallocated fresh)
        numMessageDefAllocated := table.numMessageDefAllocated + 10 } := by
    rw [grow, if_pos hfull, realloc, if_neg hnonneg, hrealloc]
    rfl
  refine ⟨_, table.reallocated fresh, hgrow, ?_⟩
  refine
    { pMessageDef := rfl
      count := rfl
      capacity := ?_
      size := h.toNat_newSize hnonneg
      bounded := h.newSize_nonneg_iff.mp hnonneg
      records := ?_ }
  · show table.numMessageDefAllocated + 10 = capacityFor (table.numMessageDef + 1)
    rw [hcapacity, capacityFor_succ_of_full (hcapacity ▸ hfull)]
  · -- the records of the old block are inside it, and are kept
    rw [definitions_of_some hblock]
    refine congrArg (List.map definitionOf) (slice_congr fun i hi => ?_)
    have hinside : (0 + i + 1) * sizeofMessageDef ≤ block.size := by
      rw [hsize]
      have hle := le_capacityFor table.numMessageDef
      exact Nat.mul_le_mul_right _ (by omega)
    simp only [reallocated, hblock, if_pos hinside]

/-- A block that is not full. -/
theorem Consistent.room_of_lt (h : table.Consistent) {block : Block}
    (hblock : table.pMessageDef = some block)
    (hlt : table.numMessageDef < table.numMessageDefAllocated) (answers : Answers) :
    table.grow answers = some table ∧ Room table table block := by
  have hcapacity := h.capacity
  refine ⟨by rw [grow, if_neg (not_le.mpr hlt)], ?_⟩
  exact
    { pMessageDef := hblock
      count := rfl
      capacity := by rw [hcapacity, capacityFor_succ_of_lt (hcapacity ▸ hlt)]
      size := h.block block hblock
      bounded := h.bounded
      records := (definitions_of_some hblock).symm }

/-- An `Add` whose allocation, if any, succeeds has room for its record. -/
theorem Consistent.exists_room (h : table.Consistent) {answers : Answers}
    (hsucceeds : ¬ table.AllocationFails answers) :
    ∃ grown block, (table.allocate answers).grow answers = some grown ∧
      Room table grown block := by
  cases hblock : table.pMessageDef with
  | none =>
      cases hmalloc : answers.malloc with
      | none => exact absurd (by rw [AllocationFails, hblock]; exact hmalloc) hsucceeds
      | some records => exact h.room_of_none hblock hmalloc
  | some block =>
      rw [allocate_of_some hblock]
      rcases Nat.lt_or_ge table.numMessageDef table.numMessageDefAllocated with hlt | hfull
      · exact ⟨table, block, h.room_of_lt hblock hlt answers⟩
      · rw [AllocationFails, hblock] at hsucceeds
        cases hrealloc : answers.realloc with
        | none => exact absurd ⟨hfull, .inl hrealloc⟩ hsucceeds
        | some fresh =>
            exact h.room_of_full hblock hfull hrealloc fun hneg =>
              hsucceeds ⟨hfull, .inr hneg⟩

/-- What an `Add` gives the caller and leaves. -/
inductive Outcome (table : Table) (call : Call) : Option (ℤ × Table) → Prop
  /-- `realloc` fails. -/
  | refused (hfails : table.AllocationFails call.answers)
      (hblock : table.pMessageDef ≠ none) : Outcome table call (some (0, table))
  /-- `malloc` fails: the record is stored at the null pointer. -/
  | nullPointer (hfails : table.AllocationFails call.answers)
      (hblock : table.pMessageDef = none) : Outcome table call none
  /-- The name runs over the end of its array. -/
  | overrun (hsucceeds : ¬ table.AllocationFails call.answers)
      (hlong : sizeofName ≤ call.definition.name.length) : Outcome table call none
  | stored {stored : Table} (hsucceeds : ¬ table.AllocationFails call.answers)
      (hfits : call.definition.name.length < sizeofName)
      (hextends : Extends table stored call.definition) : Outcome table call (some (1, stored))

theorem definitionOf_record (memory : MessageDef) {definition : Definition}
    (hfits : definition.name.length < sizeofName) :
    definitionOf (record memory definition) = definition := by
  unfold definitionOf record
  rw [CString.read_strcpy _ hfits]

/-- Storing the record where there is room for it. -/
theorem Room.store {grown : Table} {block : Block} (h : Room table grown block)
    {definition : Definition} (hfits : definition.name.length < sizeofName) :
    ∃ stored, grown.store definition = some stored ∧ Extends table stored definition := by
  have hcapacity := h.capacity
  have hinside : (grown.numMessageDef + 1) * sizeofMessageDef ≤ block.size := by
    rw [h.size, h.count, hcapacity]
    exact Nat.mul_le_mul_right _ (le_capacityFor _)
  refine ⟨_, by rw [Table.store, h.pMessageDef]; exact if_pos ⟨hinside, hfits⟩, ?_⟩
  refine { consistent := ?_, count := by rw [← h.count], definitions := ?_ }
  · exact
      { capacity := by rw [hcapacity, h.count]
        block := fun b hb => by
          cases hb
          exact h.size
        no_block := nofun
        bounded := h.bounded }
  · rw [definitions_of_some rfl, ← h.records, h.count]
    have happend := slice_blit_append block.records 0 table.numMessageDef
      [record (block.records table.numMessageDef) definition]
    rw [Nat.zero_add, List.length_singleton] at happend
    rw [happend, List.map_append, List.map_singleton, definitionOf_record _ hfits]

/-- A name that is too long. -/
theorem store_of_long (grown : Table) {definition : Definition}
    (hlong : sizeofName ≤ definition.name.length) : grown.store definition = none := by
  unfold store
  cases grown.pMessageDef with
  | none => rfl
  | some block => exact if_neg fun hboth => absurd hboth.2 (not_lt.mpr hlong)

theorem add_of_grow {grown : Table}
    (hgrow : (table.allocate call.answers).grow call.answers = some grown) :
    table.add call = (grown.store call.definition).map fun stored => (1, stored) := by
  rw [add, hgrow]

theorem Consistent.add_null (h : table.Consistent) (hfails : table.AllocationFails call.answers)
    (hblock : table.pMessageDef = none) : table.add call = none := by
  rw [AllocationFails, hblock] at hfails
  have hmalloc : call.answers.malloc = none := hfails
  unfold add allocate
  rw [hblock, hmalloc, h.no_block hblock]
  rfl

theorem add_refused {block : Block} (hfails : table.AllocationFails call.answers)
    (hblock : table.pMessageDef = some block) : table.add call = some (0, table) := by
  rw [AllocationFails, hblock] at hfails
  obtain ⟨hfull, hrefused⟩ := hfails
  have hrealloc : table.realloc call.answers = none := by
    unfold realloc
    rcases hrefused with hnone | hneg
    · rw [hnone, Option.map_none, ite_self]
    · rw [if_pos hneg]
  rw [add, allocate_of_some hblock, grow, if_pos hfull, hrealloc]
  rfl

theorem Consistent.add_stored (h : table.Consistent)
    (hsucceeds : ¬ table.AllocationFails call.answers)
    (hfits : call.definition.name.length < sizeofName) :
    ∃ stored, table.add call = some (1, stored) ∧ Extends table stored call.definition := by
  obtain ⟨grown, block, hgrow, hroom⟩ := h.exists_room hsucceeds
  obtain ⟨stored, hstore, hextends⟩ := hroom.store hfits
  exact ⟨stored, by rw [add_of_grow hgrow, hstore, Option.map_some], hextends⟩

theorem Consistent.add_overrun (h : table.Consistent)
    (hsucceeds : ¬ table.AllocationFails call.answers)
    (hlong : sizeofName ≤ call.definition.name.length) : table.add call = none := by
  obtain ⟨grown, block, hgrow, -⟩ := h.exists_room hsucceeds
  rw [add_of_grow hgrow, store_of_long grown hlong, Option.map_none]

/-- **An `Add`.** -/
theorem Consistent.add_outcome (h : table.Consistent) (call : Call) :
    Outcome table call (table.add call) := by
  by_cases hfails : table.AllocationFails call.answers
  · cases hblock : table.pMessageDef with
    | none =>
        rw [h.add_null hfails hblock]
        exact .nullPointer hfails hblock
    | some block =>
        rw [add_refused hfails hblock]
        exact .refused hfails (by rw [hblock]; exact Option.some_ne_none block)
  · rcases Nat.lt_or_ge call.definition.name.length sizeofName with hfits | hlong
    · obtain ⟨stored, hadd, hextends⟩ := h.add_stored hfails hfits
      rw [hadd]
      exact .stored hfails hfits hextends
    · rw [h.add_overrun hfails hlong]
      exact .overrun hfails hlong

end Table

end XbeeAssignment.Messages
