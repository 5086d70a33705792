import Mathlib.Tactic.Common

/-!
# Runs of a labelled transition relation

A step relation `step : σ → ℓ → σ → Prop` says which state a label can lead to.
`Run step s ls t` follows a list of labels, and the rules everything else rests
on are

* `Run.invariant`: what every step preserves, a run preserves;
* `Run.invariant_flatMap`: the same for a run of blocks of labels, where the
  invariant need only hold between the blocks;
* `Run.history`: the same for what is said of the labels so far and the state;
* `Run.countP_le`: a measure that steps take from bounds their number.

A condition on the steps of a run is part of the relation (`Guarded`), so that
"in every run whose steps all meet the condition" is a statement about
`Run (Guarded cond step)`.  A deterministic machine is a function
`σ → ℓ → Option σ`; `StepOf` is its relation and `exec` runs it.
-/

namespace Transition

variable {σ ℓ : Type*} {step : σ → ℓ → σ → Prop}

/-- The labels `ls` lead from `s` to `t`, one step each. -/
inductive Run (step : σ → ℓ → σ → Prop) : σ → List ℓ → σ → Prop
  | nil (s : σ) : Run step s [] s
  | cons {s m t : σ} {l : ℓ} {ls : List ℓ} :
      step s l m → Run step m ls t → Run step s (l :: ls) t

/-- The steps whose starting state and label meet `cond`. -/
def Guarded (cond : σ → ℓ → Prop) (step : σ → ℓ → σ → Prop) (s : σ) (l : ℓ) (t : σ) : Prop :=
  cond s l ∧ step s l t

/-- Every step of the run of `ls` from `s` meets `P`. -/
def EveryStep (step : σ → ℓ → σ → Prop) (P : σ → ℓ → σ → Prop) (s : σ) (ls : List ℓ) : Prop :=
  ∀ (before after : List ℓ) (l : ℓ) (m t : σ),
    ls = before ++ l :: after → Run step s before m → step m l t → P m l t

/-! ## Composing runs -/

namespace Run

theorem append {s m t : σ} {ls ls' : List ℓ} (hfirst : Run step s ls m)
    (hsecond : Run step m ls' t) : Run step s (ls ++ ls') t := by
  induction hfirst with
  | nil _ => exact hsecond
  | cons hstep _ ih => exact .cons hstep (ih hsecond)

theorem exists_of_append {s t : σ} {ls ls' : List ℓ} (hrun : Run step s (ls ++ ls') t) :
    ∃ m, Run step s ls m ∧ Run step m ls' t := by
  induction ls generalizing s with
  | nil => exact ⟨s, .nil s, hrun⟩
  | cons l ls ih =>
      cases hrun with
      | cons hstep hrest =>
          obtain ⟨m, hfirst, hsecond⟩ := ih hrest
          exact ⟨m, .cons hstep hfirst, hsecond⟩

theorem exists_of_cons {s t : σ} {l : ℓ} {ls : List ℓ} (hrun : Run step s (l :: ls) t) :
    ∃ m, step s l m ∧ Run step m ls t := by
  cases hrun with
  | cons hstep hrest => exact ⟨_, hstep, hrest⟩

/-- A run whose labels meet a condition in every state is a run of the guarded relation. -/
theorem guarded {cond : σ → ℓ → Prop} {s t : σ} {ls : List ℓ} (hrun : Run step s ls t)
    (hall : ∀ l ∈ ls, ∀ m, cond m l) : Run (Guarded cond step) s ls t := by
  induction hrun with
  | nil s => exact .nil s
  | cons hstep _ ih =>
      exact .cons ⟨hall _ (List.mem_cons_self ..) _, hstep⟩
        (ih fun l hl => hall l (List.mem_cons_of_mem _ hl))

/-! ## Invariants -/

/-- What every step preserves, a run preserves. -/
theorem invariant {Inv : σ → Prop} (hstep : ∀ s l t, Inv s → step s l t → Inv t)
    {s t : σ} {ls : List ℓ} (hrun : Run step s ls t) (hstart : Inv s) : Inv t := by
  induction hrun with
  | nil _ => exact hstart
  | cons h _ ih => exact ih (hstep _ _ _ hstart h)

/-- What every block of labels preserves, a run of blocks preserves. -/
theorem invariant_flatMap {κ : Type*} {block : κ → List ℓ} {Inv : σ → Prop}
    (hblock : ∀ s c t, Inv s → Run step s (block c) t → Inv t)
    {s t : σ} {cs : List κ} (hrun : Run step s (cs.flatMap block) t) (hstart : Inv s) : Inv t := by
  induction cs generalizing s with
  | nil =>
      cases hrun
      exact hstart
  | cons c cs ih =>
      rw [List.flatMap_cons] at hrun
      obtain ⟨m, hfirst, hrest⟩ := hrun.exists_of_append
      exact ih hrest (hblock _ _ _ hstart hfirst)

/-- What every step preserves of the labels so far and the state, a run preserves. -/
theorem history {Inv : List ℓ → σ → Prop}
    (hstep : ∀ ls s l t, Inv ls s → step s l t → Inv (ls ++ [l]) t)
    {s t : σ} {ls : List ℓ} (hrun : Run step s ls t) {before : List ℓ} (hstart : Inv before s) :
    Inv (before ++ ls) t := by
  induction hrun generalizing before with
  | nil _ =>
      rw [List.append_nil]
      exact hstart
  | cons h _ ih =>
      rw [List.append_cons]
      exact ih (hstep _ _ _ _ hstart h)

/-- If every step with a label in `p` takes one off a measure that no step adds to, a run has no
more of them than the measure. -/
theorem countP_le (measure : σ → ℕ) (p : ℓ → Bool)
    (hstep : ∀ s l t, step s l t → measure t + (if p l then 1 else 0) ≤ measure s)
    {s t : σ} {ls : List ℓ} (hrun : Run step s ls t) : measure t + ls.countP p ≤ measure s := by
  induction hrun with
  | nil _ => exact Nat.le_refl _
  | cons h _ ih =>
      have hfirst := hstep _ _ _ h
      rw [List.countP_cons]
      omega

end Run

/-! ## Conditions on every step -/

theorem everyStep_nil {P : σ → ℓ → σ → Prop} {s : σ} : EveryStep step P s [] := by
  intro before after l m t hlabels
  simp at hlabels

theorem everyStep_cons {P : σ → ℓ → σ → Prop} {s : σ} {l : ℓ} {ls : List ℓ} :
    EveryStep step P s (l :: ls) ↔ ∀ m, step s l m → P s l m ∧ EveryStep step P m ls := by
  constructor
  · intro hevery m hfirst
    refine ⟨hevery [] ls l s m rfl (.nil s) hfirst, ?_⟩
    rintro before after l' m' t rfl hbefore hstep
    exact hevery (l :: before) after l' m' t rfl (.cons hfirst hbefore) hstep
  · intro hevery before after l' m t hlabels hbefore hstep
    cases hbefore with
    | nil _ =>
        obtain ⟨rfl, rfl⟩ := List.cons.inj hlabels
        exact (hevery _ hstep).1
    | cons hfirst hrest =>
        obtain ⟨rfl, rfl⟩ := List.cons.inj hlabels
        exact (hevery _ hfirst).2 _ _ _ _ _ rfl hrest hstep

/-- A condition that keeps an invariant, and under the invariant says the same of a step as
another one, says the same of every step of a run. -/
theorem everyStep_iff_of_invariant (Inv : σ → Prop) {cond : σ → ℓ → Prop}
    {P : σ → ℓ → σ → Prop}
    (hkeep : ∀ s l t, Inv s → cond s l → step s l t → Inv t)
    (hiff : ∀ s l t, Inv s → step s l t → (P s l t ↔ cond s l))
    {s : σ} {ls : List ℓ} (hstart : Inv s) :
    EveryStep step P s ls ↔ EveryStep step (fun s l _ => cond s l) s ls := by
  induction ls generalizing s with
  | nil => exact iff_of_true everyStep_nil everyStep_nil
  | cons l ls ih =>
      rw [everyStep_cons, everyStep_cons]
      refine forall_congr' fun m => forall_congr' fun hstep => ?_
      rw [hiff s l m hstart hstep]
      exact and_congr_right fun hcond => ih (hkeep s l m hstart hcond hstep)

/-! ## Deterministic machines -/

/-- The step relation of a partial function. -/
def StepOf (next : σ → ℓ → Option σ) (s : σ) (l : ℓ) (t : σ) : Prop :=
  next s l = some t

/-- Run a partial function over a list of labels. -/
def exec (next : σ → ℓ → Option σ) : σ → List ℓ → Option σ
  | s, [] => some s
  | s, l :: ls => (next s l).bind fun t => exec next t ls

theorem run_iff_exec {next : σ → ℓ → Option σ} {s t : σ} {ls : List ℓ} :
    Run (StepOf next) s ls t ↔ exec next s ls = some t := by
  induction ls generalizing s with
  | nil =>
      constructor
      · intro hrun
        cases hrun
        rfl
      · intro hexec
        cases hexec
        exact .nil _
  | cons l ls ih =>
      constructor
      · intro hrun
        obtain ⟨m, hstep, hrest⟩ := hrun.exists_of_cons
        rw [exec, hstep, Option.bind_some]
        exact ih.mp hrest
      · intro hexec
        obtain ⟨m, hstep, hrest⟩ := Option.bind_eq_some_iff.mp hexec
        exact .cons hstep (ih.mpr hrest)

/-- The partial function that stops where the condition fails. -/
def guardNext (cond : σ → ℓ → Prop) [∀ s l, Decidable (cond s l)] (next : σ → ℓ → Option σ)
    (s : σ) (l : ℓ) : Option σ :=
  if cond s l then next s l else none

theorem run_guarded_iff_exec {cond : σ → ℓ → Prop} [∀ s l, Decidable (cond s l)]
    {next : σ → ℓ → Option σ} {s t : σ} {ls : List ℓ} :
    Run (Guarded cond (StepOf next)) s ls t ↔ exec (guardNext cond next) s ls = some t := by
  have hstep : Guarded cond (StepOf next) = StepOf (guardNext cond next) := by
    funext s l t
    by_cases hcond : cond s l <;> simp [Guarded, StepOf, guardNext, hcond]
  rw [hstep, run_iff_exec]

end Transition
