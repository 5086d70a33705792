import Mathlib.Logic.Function.Basic
import Mathlib.Tactic.Common

/-!
# A ledger of numbered resources

A resource has a number.  It is acquired for a holder, who keeps the number in a
field, and released by a side.  The accounts are in order while every number in use
is in the field of its holder (`Held`) and every release was made of a number in use,
by the side of its holder (`Rightful`): then nothing is lost, and nothing is released
twice or by the wrong side.

What an assignment to a field does to the accounts is `held_update`: a field may be
assigned exactly while its holder holds nothing.
-/

/-- The holder of every number in use, and for every release the side that made it and the holder
it found. -/
structure Ledger (ν ω κ : Type*) where
  holder : ν → Option ω
  releases : List (κ × Option ω)

namespace Ledger

variable {ν ω κ : Type*}

/-- Nothing is in use. -/
def empty : Ledger ν ω κ :=
  { holder := fun _ => none, releases := [] }

def acquire [DecidableEq ν] (ledger : Ledger ν ω κ) (n : ν) (o : ω) : Ledger ν ω κ :=
  { ledger with holder := Function.update ledger.holder n (some o) }

def release [DecidableEq ν] (ledger : Ledger ν ω κ) (side : κ) (n : ν) : Ledger ν ω κ :=
  { holder := Function.update ledger.holder n none
    releases := ledger.releases ++ [(side, ledger.holder n)] }

/-- Acquire what a call returned, which is `null` if it failed. -/
def acquireUnless [DecidableEq ν] (null : ν) (ledger : Ledger ν ω κ) (n : ν) (o : ω) :
    Ledger ν ω κ :=
  if n = null then ledger else ledger.acquire n o

/-- Release one number after the other. -/
def releaseAll [DecidableEq ν] (ledger : Ledger ν ω κ) (side : κ) (ns : List ν) : Ledger ν ω κ :=
  ns.foldl (fun ledger n => ledger.release side n) ledger

/-- Every number in use is in the field of its holder. -/
def Held (ledger : Ledger ν ω κ) (field : ω → ν) : Prop :=
  ∀ n o, ledger.holder n = some o → field o = n

/-- Every release found a holder of its own side. -/
def Rightful (ledger : Ledger ν ω κ) (side : ω → κ) : Prop :=
  ∀ release ∈ ledger.releases, release.2.map side = some release.1

theorem held_empty (field : ω → ν) : (empty : Ledger ν ω κ).Held field := by
  intro n o hholder
  cases hholder

theorem rightful_empty (side : ω → κ) : (empty : Ledger ν ω κ).Rightful side := by
  intro release hmem
  cases hmem

variable {ledger : Ledger ν ω κ} {field : ω → ν} {side : ω → κ} {m n : ν} {o : ω} {k : κ}

/-- A field whose holder holds nothing may be assigned. -/
theorem Held.update [DecidableEq ω] (hheld : ledger.Held field)
    (hnone : ∀ m, ledger.holder m ≠ some o) : ledger.Held (Function.update field o n) := by
  intro m p hholder
  have hne : p ≠ o := by
    rintro rfl
    exact hnone m hholder
  rw [Function.update_of_ne hne]
  exact hheld m p hholder

/-- Assigning a number that is not in use to the field of `o` loses what `o` holds. -/
theorem held_update [DecidableEq ω] (hfree : ledger.holder n = none) :
    ledger.Held (Function.update field o n) ↔
      ledger.Held field ∧ ∀ m, ledger.holder m ≠ some o := by
  constructor
  · intro hheld
    have hnone : ∀ m, ledger.holder m ≠ some o := by
      intro m hholder
      have hm := hheld m o hholder
      rw [Function.update_self] at hm
      rw [← hm, hfree] at hholder
      cases hholder
    refine ⟨fun m p hholder => ?_, hnone⟩
    have hne : p ≠ o := by
      rintro rfl
      exact hnone m hholder
    have hm := hheld m p hholder
    rwa [Function.update_of_ne hne] at hm
  · rintro ⟨hheld, hnone⟩
    exact hheld.update hnone

variable [DecidableEq ν]

theorem holder_acquire_self : (ledger.acquire n o).holder n = some o :=
  Function.update_self ..

theorem holder_acquire_of_ne (hne : m ≠ n) : (ledger.acquire n o).holder m = ledger.holder m :=
  Function.update_of_ne hne ..

theorem holder_release_eq_some :
    (ledger.release k n).holder m = some o ↔ m ≠ n ∧ ledger.holder m = some o := by
  by_cases hsame : m = n
  · subst hsame
    simp [release]
  · simp [release, hsame]

theorem rightful_release :
    (ledger.release k n).Rightful side ↔
      ledger.Rightful side ∧ ∃ o, ledger.holder n = some o ∧ side o = k := by
  simp [Rightful, release, or_imp, forall_and]

theorem held_acquire (hfree : ledger.holder n = none) :
    (ledger.acquire n o).Held field ↔ ledger.Held field ∧ field o = n := by
  constructor
  · intro hheld
    refine ⟨fun m p hholder => ?_, hheld n o holder_acquire_self⟩
    have hne : m ≠ n := by
      rintro rfl
      rw [hfree] at hholder
      cases hholder
    exact hheld m p ((holder_acquire_of_ne hne).trans hholder)
  · rintro ⟨hheld, hfield⟩ m p hholder
    by_cases hsame : m = n
    · subst hsame
      rw [holder_acquire_self] at hholder
      obtain rfl := Option.some.inj hholder
      exact hfield
    · rw [holder_acquire_of_ne hsame] at hholder
      exact hheld m p hholder

theorem Held.release (hheld : ledger.Held field) : (ledger.release k n).Held field := by
  intro m o hholder
  exact hheld m o (holder_release_eq_some.mp hholder).2

/-! ## Calls that fail, and lists of numbers -/

/-- Storing what a call returned loses what the field held. -/
theorem held_acquireUnless [DecidableEq ω] {null : ν} (hfree : ledger.holder n = none) :
    (ledger.acquireUnless null n o).Held (Function.update field o n) ↔
      ledger.Held field ∧ ∀ m, ledger.holder m ≠ some o := by
  unfold acquireUnless
  split
  · exact held_update hfree
  · rw [held_acquire hfree, held_update hfree]
    exact and_iff_left (Function.update_self ..)

theorem rightful_acquireUnless {null : ν} :
    (ledger.acquireUnless null n o).Rightful side ↔ ledger.Rightful side := by
  unfold acquireUnless
  split <;> rfl

theorem holder_acquireUnless_self {null : ν} (hne : n ≠ null) :
    (ledger.acquireUnless null n o).holder n = some o := by
  rw [acquireUnless, if_neg hne]
  exact holder_acquire_self

theorem holder_acquireUnless_of_ne {null : ν} (hne : m ≠ n) :
    (ledger.acquireUnless null n o).holder m = ledger.holder m := by
  unfold acquireUnless
  split
  · rfl
  · exact holder_acquire_of_ne hne

theorem holder_acquireUnless_null {null : ν} :
    (ledger.acquireUnless null n o).holder null = ledger.holder null := by
  by_cases hnull : null = n
  · rw [acquireUnless, if_pos hnull.symm]
  · exact holder_acquireUnless_of_ne hnull

/-- What is in use afterwards was in use before, or is what the call returned. -/
theorem holder_acquireUnless_cases {null : ν} {p : ω}
    (hholder : (ledger.acquireUnless null n o).holder m = some p) :
    m = n ∧ p = o ∧ n ≠ null ∨ ledger.holder m = some p := by
  by_cases hnull : n = null
  · rw [acquireUnless, if_pos hnull] at hholder
    exact .inr hholder
  · by_cases hsame : m = n
    · subst hsame
      rw [holder_acquireUnless_self hnull] at hholder
      exact .inl ⟨rfl, (Option.some.inj hholder).symm, hnull⟩
    · exact .inr ((holder_acquireUnless_of_ne hsame).symm.trans hholder)

/-- What is in use stays so. -/
theorem holder_acquireUnless_of_holder {null : ν} {p : ω} (hfree : ledger.holder n = none)
    (hholder : ledger.holder m = some p) :
    (ledger.acquireUnless null n o).holder m = some p := by
  have hne : m ≠ n := by
    rintro rfl
    rw [hfree] at hholder
    cases hholder
  exact (holder_acquireUnless_of_ne hne).trans hholder

theorem holder_releaseAll {ns : List ν} :
    (ledger.releaseAll k ns).holder m = some o ↔ m ∉ ns ∧ ledger.holder m = some o := by
  induction ns generalizing ledger with
  | nil => simp [releaseAll]
  | cons n ns ih =>
      rw [releaseAll, List.foldl_cons, ← releaseAll, ih, holder_release_eq_some, List.mem_cons,
        not_or, and_assoc, and_left_comm]

/-- A list is released rightfully if its numbers are distinct and in use by the side. -/
theorem rightful_releaseAll {ns : List ν} :
    (ledger.releaseAll k ns).Rightful side ↔
      ledger.Rightful side ∧ ns.Nodup ∧ ∀ n ∈ ns, ∃ o, ledger.holder n = some o ∧ side o = k := by
  induction ns generalizing ledger with
  | nil => simp [releaseAll]
  | cons n ns ih =>
      rw [releaseAll, List.foldl_cons, ← releaseAll, ih, rightful_release, List.nodup_cons,
        List.forall_mem_cons]
      constructor
      · rintro ⟨⟨hrightful, hfirst⟩, hnodup, hrest⟩
        refine ⟨hrightful, ⟨fun hmem => ?_, hnodup⟩, hfirst, fun m hm => ?_⟩
        · -- the second release would find nothing
          obtain ⟨o, hholder, -⟩ := hrest n hmem
          exact (holder_release_eq_some.mp hholder).1 rfl
        · obtain ⟨o, hholder, hside⟩ := hrest m hm
          exact ⟨o, (holder_release_eq_some.mp hholder).2, hside⟩
      · rintro ⟨hrightful, ⟨hnot, hnodup⟩, hfirst, hrest⟩
        refine ⟨⟨hrightful, hfirst⟩, hnodup, fun m hm => ?_⟩
        obtain ⟨o, hholder, hside⟩ := hrest m hm
        exact ⟨o, holder_release_eq_some.mpr ⟨ne_of_mem_of_not_mem hm hnot, hholder⟩, hside⟩

end Ledger
