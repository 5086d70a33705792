import XbeeAssignment.Socket.Descriptors
import XbeeAssignment.Socket.Slots
import Mathlib.Data.List.Nodup

/-!
# Who frees a buffer

`accept` allocates two buffers and stores their addresses in the entry it has found, and
`DestroyRx` frees whatever the pointers of all entries hold and zeroes the entries.

On an object in zeroed memory, such as a global one, no `free` is ever wrong: a pointer
that is not null holds a block in use, and no two pointers the same one, in any run
(`frees_rightful`).  But as `accept` always finds entry `0` (`AllFree`), a second
connection stores its buffers over those of the first, which nothing frees any more.
Every block is freed in the end exactly if every connection finds the pointers of that
entry null, so that `DestroyRx` is called between any two (`buffers_accounted_iff`).

A buffer has an address, `0` for a `malloc` that fails.  Reading, moving and `Rx` leave the
pointers alone.
-/

namespace XbeeAssignment.Socket

open Transition

/-- The buffers of an entry. -/
inductive Buffer
  | inBuf
  | readyBuf
  deriving DecidableEq

/-- The pointers to a buffer, in the order in which `DestroyRx` comes to them. -/
def bufferFields : List (Fin maxClients × Buffer) :=
  (List.finRange maxClients).flatMap fun i => [(i, .inBuf), (i, .readyBuf)]

/-- The receiving half of a `Socket` with the ledger of its buffers. -/
structure Buffers where
  sock : Socket
  /-- The addresses in `pInBuf` and `pReadyBuf`. -/
  pointer : Fin maxClients × Buffer → ℕ
  ledger : Ledger ℕ (Fin maxClients × Buffer) Unit
  /-- The last `InitRx` has returned `1`. -/
  listening : Bool
  destroyed : Bool

inductive BufferEvent
  | initRx (packageSize : ℤ) (callback : Bool) (results : InitResults)
  /-- The connection and what the two `malloc`s return. -/
  | accept (desc : ℤ) (inBuf readyBuf : ℕ)
  | destroyRx
  /-- `~Socket`. -/
  | destruct

namespace Buffers

/-- After the constructor, in zeroed memory. -/
def start (packageSize : ℤ) : Buffers :=
  { sock := constructed packageSize fun _ => .zero, pointer := fun _ => 0, ledger := .empty,
    listening := false, destroyed := false }

/-- What two `malloc`s can return. -/
def Fresh (ledger : Ledger ℕ (Fin maxClients × Buffer) Unit) (inBuf readyBuf : ℕ) : Prop :=
  ledger.holder inBuf = none ∧ ledger.holder readyBuf = none ∧ (inBuf = readyBuf → inBuf = 0)

instance (ledger : Ledger ℕ (Fin maxClients × Buffer) Unit) (inBuf readyBuf : ℕ) :
    Decidable (Fresh ledger inBuf readyBuf) :=
  inferInstanceAs (Decidable (_ ∧ _ ∧ _))

/-! ## The operations -/

/-- Storing the address of a buffer. -/
def store (s : Buffers) (field : Fin maxClients × Buffer) (address : ℕ) : Buffers :=
  { s with pointer := Function.update s.pointer field address
           ledger := s.ledger.acquireUnless 0 address field }

/-- `accept` in the listener, which finds the entry for the connection. -/
def accept (s : Buffers) (desc : ℤ) (inBuf readyBuf : ℕ) (slot : Fin maxClients) : Buffers :=
  let conn : Connection := { desc := desc, inBuf := inBuf ≠ 0, readyBuf := readyBuf ≠ 0 }
  let stored := (s.store (slot, .inBuf) inBuf).store (slot, .readyBuf) readyBuf
  { stored with
    sock := { s.sock with
              clientList := Function.update s.sock.clientList slot
                (acceptClient conn (s.sock.clientList slot)) } }

/-- The addresses `DestroyRx` passes to `free`. -/
def freed (s : Buffers) : List ℕ :=
  (bufferFields.map s.pointer).filter fun address => address ≠ 0

/-- `DestroyRx`; the descriptor that it closes plays no part. -/
def destroyRx (s : Buffers) : Buffers :=
  { s with sock := (s.sock.destroyRx (-1)).1, pointer := fun _ => 0
           ledger := s.ledger.releaseAll () s.freed }

/-- One operation on an object that is not destroyed. -/
def next (s : Buffers) (event : BufferEvent) : Option Buffers :=
  if s.destroyed then none
  else
    match event with
    | .initRx packageSize callback results =>
        let init := s.sock.initRx packageSize callback results
        some { s with sock := init.1, listening := init.2 = 1 }
    | .accept desc inBuf readyBuf =>
        if s.listening ∧ s.sock.rxSocketDesc ≠ -1 ∧ 0 ≤ desc ∧ Fresh s.ledger inBuf readyBuf then
          s.sock.freeSlot.map (s.accept desc inBuf readyBuf)
        else none
    | .destroyRx => some s.destroyRx
    | .destruct => some { s.destroyRx with destroyed := true }

/-! ## The accounts -/

/-- The side that frees. -/
def side (_ : Fin maxClients × Buffer) : Unit := ()

/-- Every block in use is pointed to, every `free` was of one in use, and after the destructor
nothing is. -/
structure Accounted (s : Buffers) : Prop where
  held : s.ledger.Held s.pointer
  rightful : s.ledger.Rightful side
  all_freed : s.destroyed = true → ∀ block, s.ledger.holder block = none

/-- A pointer that is not null holds a block in use, that is its own. -/
structure Kept (s : Buffers) : Prop where
  all_free : s.sock.AllFree
  null : s.ledger.holder 0 = none
  live : ∀ field, s.pointer field ≠ 0 → s.ledger.holder (s.pointer field) = some field
  rightful : s.ledger.Rightful side
  destroyed : s.destroyed = true → ∀ field, s.pointer field = 0

/-- The entry that `accept` finds has no buffers. -/
def KeepsBuffers (s : Buffers) : BufferEvent → Prop
  | .accept .. =>
      ∀ slot ∈ s.sock.freeSlot, s.pointer (slot, .inBuf) = 0 ∧ s.pointer (slot, .readyBuf) = 0
  | .initRx .. | .destroyRx | .destruct => True

variable {s s' : Buffers}

/-- An entry's field holds something exactly if it is not null. -/
theorem Kept.pointer_eq_zero_iff (h : s.Kept) (hheld : s.ledger.Held s.pointer)
    (field : Fin maxClients × Buffer) :
    s.pointer field = 0 ↔ ∀ block, s.ledger.holder block ≠ some field := by
  constructor
  · intro hnull block hholder
    rw [← hheld block field hholder, hnull, h.null] at hholder
    cases hholder
  · intro hnone
    by_contra hpointer
    exact hnone _ (h.live field hpointer)

/-! ## Storing an address -/

theorem Kept.store (h : s.Kept) (hlive : s.destroyed = false) {address : ℕ}
    (hfree : s.ledger.holder address = none) (field : Fin maxClients × Buffer) :
    (s.store field address).Kept where
  all_free := h.all_free
  null := Ledger.holder_acquireUnless_null.trans h.null
  live := by
    intro other hpointer
    by_cases hsame : other = field
    · subst hsame
      simp only [Buffers.store, Function.update_self] at hpointer ⊢
      exact Ledger.holder_acquireUnless_self hpointer
    · simp only [Buffers.store, Function.update_of_ne hsame] at hpointer ⊢
      have hholder := h.live other hpointer
      have hne : s.pointer other ≠ address := by
        rintro heq
        rw [heq, hfree] at hholder
        cases hholder
      exact (Ledger.holder_acquireUnless_of_ne hne).trans hholder
  rightful := Ledger.rightful_acquireUnless.mpr h.rightful
  destroyed := fun hdestroyed => absurd hdestroyed (by simp [Buffers.store, hlive])

/-- The first of the two addresses is not the second one. -/
theorem holder_store {inBuf readyBuf : ℕ} (hfresh : Fresh s.ledger inBuf readyBuf)
    (field : Fin maxClients × Buffer) :
    (s.store field inBuf).ledger.holder readyBuf = none := by
  by_cases hsame : readyBuf = inBuf
  · have hnull : inBuf = 0 := hfresh.2.2 hsame.symm
    rw [hsame]
    simpa [Buffers.store, Ledger.acquireUnless, hnull] using hnull ▸ hfresh.1
  · exact (Ledger.holder_acquireUnless_of_ne hsame).trans hfresh.2.1

theorem Kept.accept (h : s.Kept) (hlive : s.destroyed = false) {inBuf readyBuf : ℕ}
    (hfresh : Fresh s.ledger inBuf readyBuf) (desc : ℤ) (slot : Fin maxClients) :
    (s.accept desc inBuf readyBuf slot).Kept := by
  have hfirst := h.store hlive hfresh.1 (slot, .inBuf)
  have hsecond := hfirst.store hlive (holder_store hfresh _) (slot, .readyBuf)
  refine { all_free := fun i => ?_, null := hsecond.null, live := hsecond.live,
           rightful := hsecond.rightful, destroyed := hsecond.destroyed }
  by_cases hsame : i = slot
  · subst hsame
    simp only [Buffers.accept, Function.update_self, acceptClient_flag]
    exact h.all_free i
  · simp only [Buffers.accept, Function.update_of_ne hsame]
    exact h.all_free i

/-- The blocks of an entry are lost when two others are stored in it. -/
theorem Kept.held_accept (h : s.Kept) (hheld : s.ledger.Held s.pointer) {inBuf readyBuf : ℕ}
    (hfresh : Fresh s.ledger inBuf readyBuf) (desc : ℤ) (slot : Fin maxClients) :
    (s.accept desc inBuf readyBuf slot).ledger.Held (s.accept desc inBuf readyBuf slot).pointer ↔
      s.pointer (slot, .inBuf) = 0 ∧ s.pointer (slot, .readyBuf) = 0 := by
  have hne : ((slot, .readyBuf) : Fin maxClients × Buffer) ≠ (slot, .inBuf) := by simp
  -- the first address is stored in another field than the second
  have hother : (∀ block, (s.store (slot, .inBuf) inBuf).ledger.holder block ≠
        some (slot, .readyBuf)) ↔ ∀ block, s.ledger.holder block ≠ some (slot, .readyBuf) := by
    refine forall_congr' fun block => not_congr ?_
    by_cases hsame : block = inBuf
    · subst hsame
      have hnot : (s.store (slot, .inBuf) block).ledger.holder block ≠ some (slot, .readyBuf) := by
        intro hholder
        by_cases hnull : block = 0
        · simp [Buffers.store, Ledger.acquireUnless, hnull, h.null] at hholder
        · rw [Buffers.store, Ledger.holder_acquireUnless_self hnull] at hholder
          exact hne (Option.some.inj hholder).symm
      exact iff_of_false hnot (by simp [hfresh.1])
    · rw [Buffers.store, Ledger.holder_acquireUnless_of_ne hsame]
  refine (Ledger.held_acquireUnless (holder_store hfresh _)).trans ?_
  rw [hother, h.pointer_eq_zero_iff hheld, h.pointer_eq_zero_iff hheld]
  refine and_congr_left fun _ => (Ledger.held_acquireUnless hfresh.1).trans ?_
  exact and_iff_right hheld

/-! ## `DestroyRx` -/

theorem mem_bufferFields (field : Fin maxClients × Buffer) : field ∈ bufferFields := by
  obtain ⟨i, buffer⟩ := field
  refine List.mem_flatMap.mpr ⟨i, List.mem_finRange i, ?_⟩
  cases buffer <;> simp

theorem nodup_bufferFields : bufferFields.Nodup := by decide

theorem mem_freed {block : ℕ} :
    block ∈ s.freed ↔ block ≠ 0 ∧ ∃ field, s.pointer field = block := by
  simp [freed, mem_bufferFields, and_comm]

/-- No block is freed twice, as its holder is the only field that points to it. -/
theorem Kept.nodup_freed (h : s.Kept) : s.freed.Nodup := by
  rw [freed, List.filter_map]
  refine List.Nodup.map_on (fun field hfield field' _ hsame => ?_) (nodup_bufferFields.filter _)
  have hpointer : s.pointer field ≠ 0 := by simpa using (List.mem_filter.mp hfield).2
  have hholder := h.live field hpointer
  rw [hsame, h.live field' (hsame ▸ hpointer)] at hholder
  exact (Option.some.inj hholder).symm

theorem Kept.rightful_destroyRx (h : s.Kept) : s.destroyRx.ledger.Rightful side := by
  refine Ledger.rightful_releaseAll.mpr ⟨h.rightful, h.nodup_freed, fun block hblock => ?_⟩
  obtain ⟨hne, field, rfl⟩ := mem_freed.mp hblock
  exact ⟨field, h.live field hne, rfl⟩

theorem Kept.destroyRx (h : s.Kept) : s.destroyRx.Kept where
  all_free := fun _ => rfl
  null := by
    cases hholder : s.destroyRx.ledger.holder 0 with
    | none => rfl
    | some field =>
        have hbefore := (Ledger.holder_releaseAll.mp hholder).2
        rw [h.null] at hbefore
        cases hbefore
  live := fun _ hpointer => absurd rfl hpointer
  rightful := h.rightful_destroyRx
  destroyed := fun _ _ => rfl

/-- Whatever was pointed to is freed. -/
theorem Kept.holder_destroyRx (h : s.Kept) (hheld : s.ledger.Held s.pointer) (block : ℕ) :
    s.destroyRx.ledger.holder block = none := by
  cases hholder : s.destroyRx.ledger.holder block with
  | none => rfl
  | some field =>
      obtain ⟨hnot, hbefore⟩ := Ledger.holder_releaseAll.mp hholder
      have hne : block ≠ 0 := by
        rintro rfl
        rw [h.null] at hbefore
        cases hbefore
      exact absurd (mem_freed.mpr ⟨hne, field, hheld block field hbefore⟩) hnot

theorem Kept.held_destroyRx (h : s.Kept) (hheld : s.ledger.Held s.pointer) :
    s.destroyRx.ledger.Held s.destroyRx.pointer := by
  intro block field hholder
  rw [h.holder_destroyRx hheld block] at hholder
  cases hholder

/-! ## Runs -/

/-- What an operation does. -/
inductive Stepped (s : Buffers) : BufferEvent → Buffers → Prop
  | initRx {packageSize : ℤ} {callback : Bool} {results : InitResults} :
      Stepped s (.initRx packageSize callback results)
        { s with sock := (s.sock.initRx packageSize callback results).1
                 listening := (s.sock.initRx packageSize callback results).2 = 1 }
  | accept {desc : ℤ} {inBuf readyBuf : ℕ} {slot : Fin maxClients}
      (hfresh : Fresh s.ledger inBuf readyBuf) (hslot : s.sock.freeSlot = some slot) :
      Stepped s (.accept desc inBuf readyBuf) (s.accept desc inBuf readyBuf slot)
  | destroyRx : Stepped s .destroyRx s.destroyRx
  | destruct : Stepped s .destruct { s.destroyRx with destroyed := true }

theorem next_cases {event : BufferEvent} (hstep : s.next event = some s') :
    s.destroyed = false ∧ Stepped s event s' := by
  unfold next at hstep
  split at hstep
  · cases hstep
  next hlive =>
  refine ⟨by simpa using hlive, ?_⟩
  cases event with
  | initRx packageSize callback results =>
      obtain rfl := Option.some.inj hstep
      exact .initRx
  | accept desc inBuf readyBuf =>
      dsimp only at hstep
      split_ifs at hstep with hready
      obtain ⟨slot, hslot, rfl⟩ := Option.map_eq_some_iff.mp hstep
      exact .accept hready.2.2.2 hslot
  | destroyRx =>
      obtain rfl := Option.some.inj hstep
      exact .destroyRx
  | destruct =>
      obtain rfl := Option.some.inj hstep
      exact .destruct

theorem initRx_keeps_allFree {sock : Socket} (h : sock.AllFree) (packageSize : ℤ)
    (callback : Bool) (results : InitResults) :
    (sock.initRx packageSize callback results).1.AllFree := by
  intro i
  unfold Socket.initRx
  dsimp only
  split_ifs
  · exact h i
  · exact h i
  · exact h i
  · rfl

theorem Kept.step (h : s.Kept) {event : BufferEvent} (hstep : s.next event = some s') :
    s'.Kept := by
  obtain ⟨hlive, hstepped⟩ := next_cases hstep
  cases hstepped with
  | initRx =>
      exact { all_free := initRx_keeps_allFree h.all_free _ _ _, null := h.null, live := h.live,
              rightful := h.rightful, destroyed := h.destroyed }
  | accept hfresh _ => exact h.accept hlive hfresh _ _
  | destroyRx => exact h.destroyRx
  | destruct =>
      have hdestroyed := h.destroyRx
      exact { all_free := hdestroyed.all_free, null := hdestroyed.null, live := hdestroyed.live,
              rightful := hdestroyed.rightful, destroyed := fun _ _ => rfl }

theorem start_kept (packageSize : ℤ) : (start packageSize).Kept where
  all_free := fun _ => rfl
  null := rfl
  live := fun _ hpointer => absurd rfl hpointer
  rightful := Ledger.rightful_empty _
  destroyed := fun _ _ => rfl

/-- **Frees.**  In every run on an object in zeroed memory every `free` is of a block in use, so
that none is freed twice, however many connections have been accepted over one another. -/
theorem frees_rightful (packageSize : ℤ) (events : List BufferEvent) (s : Buffers)
    (hrun : Run (StepOf next) (start packageSize) events s) : s.ledger.Rightful side :=
  (hrun.invariant (fun _ _ _ h hstep => h.step hstep) (start_kept packageSize)).rightful

/-- Two connections, of which the first is lost, and the destructor. -/
theorem frees_rightful_overwritten :
    ∃ s, Run (StepOf next) (start 2)
        [.initRx 2 true (.success 3), .accept 4 16 32, .accept 5 48 64, .destruct] s ∧
      s.ledger.Rightful side := by
  have hrun : Run (StepOf next) (start 2)
      [.initRx 2 true (.success 3), .accept 4 16 32, .accept 5 48 64, .destruct] _ :=
    run_iff_exec.mpr rfl
  exact ⟨_, hrun, frees_rightful 2 _ _ hrun⟩

/-- What an operation needs is what keeps the accounts. -/
theorem accounted_step_iff (h : s.Kept) (haccounted : s.Accounted) {event : BufferEvent}
    (hstep : s.next event = some s') : s'.Accounted ↔ s.KeepsBuffers event := by
  have hkept := h.step hstep
  obtain ⟨hlive, hstepped⟩ := next_cases hstep
  cases hstepped with
  | initRx => exact iff_of_true ⟨haccounted.held, haccounted.rightful, haccounted.all_freed⟩ trivial
  | @accept desc inBuf readyBuf slot hfresh hslot =>
      have hkeeps : s.KeepsBuffers (.accept desc inBuf readyBuf) ↔
          s.pointer (slot, .inBuf) = 0 ∧ s.pointer (slot, .readyBuf) = 0 := by
        simp only [KeepsBuffers, hslot, Option.mem_some_iff, forall_eq']
      refine Iff.trans ?_ ((h.held_accept haccounted.held hfresh desc slot).trans hkeeps.symm)
      refine ⟨Accounted.held, fun hheld => ⟨hheld, hkept.rightful, fun hdestroyed => ?_⟩⟩
      exact absurd hdestroyed (by simp [Buffers.accept, Buffers.store, hlive])
  | destroyRx =>
      refine iff_of_true ⟨h.held_destroyRx haccounted.held, hkept.rightful, fun hdestroyed => ?_⟩
        trivial
      exact absurd hdestroyed (by simp [Buffers.destroyRx, hlive])
  | destruct =>
      exact iff_of_true ⟨h.held_destroyRx haccounted.held, hkept.rightful,
        fun _ => h.holder_destroyRx haccounted.held⟩ trivial

/-- **Buffer accounting.**  In a run of operations on an object in zeroed memory every block in use
is pointed to after every operation, and none is left after the destructor, exactly if every
connection is accepted while the entry that it gets has no buffers. -/
theorem buffers_accounted_iff (packageSize : ℤ) (events : List BufferEvent) :
    EveryStep (StepOf next) (fun _ _ t => t.Accounted) (start packageSize) events ↔
      EveryStep (StepOf next) (fun s event _ => s.KeepsBuffers event) (start packageSize)
        events := by
  apply everyStep_iff_of_invariant fun s => s.Kept ∧ s.Accounted
  · rintro s event t ⟨h, haccounted⟩ hkeeps hstep
    exact ⟨h.step hstep, (accounted_step_iff h haccounted hstep).mpr hkeeps⟩
  · rintro s event t ⟨h, haccounted⟩ hstep
    exact accounted_step_iff h haccounted hstep
  · refine ⟨start_kept packageSize, Ledger.held_empty _, Ledger.rightful_empty _, ?_⟩
    intro hdestroyed
    cases hdestroyed

end Buffers

end XbeeAssignment.Socket
