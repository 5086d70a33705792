import XbeeAssignment.XBee.Exchange
import Mathlib.Data.ENat.Lattice

/-!
# The retry loop is bounded

`firstSuccess outcomes` is the position, counted from 1, of the first call of
`receive` that returns true, and `⊤` if there is none.  The loop ends after

  `min (firstSuccess outcomes) (attempts retries)`

iterations (`writes_exchangeLoop`), each of which writes the frame once, and
calls the callback in the last one if that one receives (`calls_exchangeLoop`).

For `retries ≥ 1` the bound is `retries`.  For `retries = 0` the decrement wraps
around before it is tested, and the bound is `2 ^ 32` where one iteration is
meant; the two differ unless the first call of `receive` succeeds.
-/

namespace XbeeAssignment.XBee

open Classical in
/-- The 1-based position of the first successful `receive`. -/
noncomputable def firstSuccess (outcomes : ℕ → ReceiveExit) : ℕ∞ :=
  if h : ∃ k, (outcomes k).returned = true then ((Nat.find h + 1 : ℕ) : ℕ∞) else ⊤

theorem firstSuccess_of_first {outcomes : ℕ → ReceiveExit}
    (hfirst : (outcomes 0).returned = true) : firstSuccess outcomes = 1 := by
  have hex : ∃ k, (outcomes k).returned = true := ⟨0, hfirst⟩
  rw [firstSuccess, dif_pos hex, (Nat.find_eq_zero hex).mpr hfirst]
  rfl

/-- If the first call fails, the position is one further than in the calls after it. -/
theorem firstSuccess_of_later {outcomes : ℕ → ReceiveExit}
    (hfirst : (outcomes 0).returned = false) :
    firstSuccess outcomes = firstSuccess (fun k => outcomes (k + 1)) + 1 := by
  have hzero : ¬ (outcomes 0).returned = true := by simp [hfirst]
  by_cases hlater : ∃ k, (outcomes (k + 1)).returned = true
  · have hex : ∃ k, (outcomes k).returned = true := hlater.elim fun k hk => ⟨k + 1, hk⟩
    rw [firstSuccess, firstSuccess, dif_pos hex, dif_pos hlater,
      Nat.find_comp_succ hex hlater hzero]
    rfl
  · have hnone : ¬ ∃ k, (outcomes k).returned = true := by
      rintro ⟨k, hk⟩
      cases k with
      | zero => exact hzero hk
      | succ k => exact hlater ⟨k, hk⟩
    rw [firstSuccess, firstSuccess, dif_neg hnone, dif_neg hlater, top_add]

theorem one_le_firstSuccess (outcomes : ℕ → ReceiveExit) : 1 ≤ firstSuccess outcomes := by
  cases hfirst : (outcomes 0).returned with
  | true => rw [firstSuccess_of_first hfirst]
  | false =>
      rw [firstSuccess_of_later hfirst]
      exact le_add_self

/-! ## The iterations of the loop -/

theorem one_le_attempts (retries : UInt32) : 1 ≤ attempts retries := by
  unfold attempts
  split
  · norm_num
  · next hzero =>
      have : retries.toNat ≠ 0 := fun h => hzero (UInt32.toNat_inj.mp (by simpa using h))
      omega

/-- The loop goes on after a failed iteration exactly if more than one was left. -/
theorem attempts_eq_one {retries : UInt32} {received : Bool}
    (hend : ¬ 0 < nextRetries retries received) (hfailed : received = false) :
    attempts retries = 1 := by
  subst hfailed
  have hone : retries - 1 = 0 := by
    simpa [nextRetries, redundancy, UInt32.pos_iff_ne_zero] using hend
  have : retries = 1 := by
    have hadd := congrArg (· + 1) hone
    simpa using hadd
  rw [this]
  rfl

/-- **The writes.**  The frame is written once for each iteration. -/
theorem writes_exchangeLoop (frame : List UInt8) (retries : UInt32)
    (outcomes : ℕ → ReceiveExit) :
    ∃ n : ℕ, (n : ℕ∞) = min (firstSuccess outcomes) (attempts retries) ∧
      (exchangeLoop frame retries outcomes).writes = List.replicate n frame := by
  induction retries, outcomes using exchangeLoop.induct frame with
  | case1 retries outcomes h ih =>
      -- the loop goes on, so this iteration failed: both bounds are one more than its rest's
      obtain ⟨n, hn, hwrites⟩ := ih
      have hfailed := eq_false_of_nextRetries_pos h
      refine ⟨n + 1, ?_, ?_⟩
      · rw [firstSuccess_of_later hfailed, ← attempts_nextRetries h, Nat.cast_add, Nat.cast_add,
          hn, Nat.cast_one, min_add_add_right]
      · rw [exchangeLoop, dif_pos h]
        simp only [hwrites, List.replicate_succ]
  | case2 retries outcomes h =>
      -- the last iteration: it received, or it was the last one allowed
      refine ⟨1, ?_, ?_⟩
      · cases hreturned : (outcomes 0).returned with
        | true =>
            rw [firstSuccess_of_first hreturned, min_eq_left]
            · rfl
            · exact_mod_cast one_le_attempts retries
        | false =>
            rw [attempts_eq_one h hreturned, min_eq_right]
            exact_mod_cast one_le_firstSuccess outcomes
      · rw [exchangeLoop, dif_neg h]
        rfl

/-- **The calls.**  The callback is called once if an iteration receives, and not at all
otherwise. -/
theorem calls_exchangeLoop (frame : List UInt8) (retries : UInt32)
    (outcomes : ℕ → ReceiveExit) :
    (exchangeLoop frame retries outcomes).calls.length =
      if firstSuccess outcomes ≤ attempts retries then 1 else 0 := by
  induction retries, outcomes using exchangeLoop.induct frame with
  | case1 retries outcomes h ih =>
      have hfailed := eq_false_of_nextRetries_pos h
      have hbound : firstSuccess outcomes ≤ attempts retries ↔
          firstSuccess (fun k => outcomes (k + 1)) ≤
            attempts (nextRetries retries (outcomes 0).returned) := by
        rw [firstSuccess_of_later hfailed, ← attempts_nextRetries h, Nat.cast_add, Nat.cast_one]
        exact ENat.add_le_add_iff_right ENat.one_ne_top
      rw [exchangeLoop, dif_pos h]
      simp only [List.length_append, ih, hbound]
      rw [ReceiveExit.length_calls, hfailed]
      simp
  | case2 retries outcomes h =>
      rw [exchangeLoop, dif_neg h]
      simp only [ReceiveExit.length_calls]
      cases hreturned : (outcomes 0).returned with
      | true =>
          rw [firstSuccess_of_first hreturned, if_pos rfl, if_pos]
          exact_mod_cast one_le_attempts retries
      | false =>
          have hlater : ¬ firstSuccess outcomes ≤ attempts retries := by
            rw [firstSuccess_of_later hreturned, attempts_eq_one h hreturned, not_le]
            have := one_le_firstSuccess fun k => outcomes (k + 1)
            calc ((1 : ℕ) : ℕ∞) < 1 + 1 := by norm_num
              _ ≤ _ := add_le_add_left this 1
          rw [if_neg hlater]
          rfl

/-! ## The bound that is meant -/

/-- The loop writes the frame up to and including the first success, but at most
`max retries 1` times, and calls the callback once if the success is among these. -/
def MeetsRetryBound (frame : List UInt8) (retries : UInt32) (outcomes : ℕ → ReceiveExit) : Prop :=
  (∃ n : ℕ, (n : ℕ∞) = min (firstSuccess outcomes) ((max retries.toNat 1 : ℕ) : ℕ∞) ∧
    (exchangeLoop frame retries outcomes).writes = List.replicate n frame) ∧
  (exchangeLoop frame retries outcomes).calls.length =
    if firstSuccess outcomes ≤ ((max retries.toNat 1 : ℕ) : ℕ∞) then 1 else 0

theorem meetsRetryBound_of_ne_zero (frame : List UInt8) {retries : UInt32} (hne : retries ≠ 0)
    (outcomes : ℕ → ReceiveExit) : MeetsRetryBound frame retries outcomes := by
  have hpos := one_le_attempts retries
  have hbound : max retries.toNat 1 = attempts retries := by
    rw [attempts, if_neg hne] at hpos ⊢
    exact max_eq_left hpos
  rw [MeetsRetryBound, hbound]
  exact ⟨writes_exchangeLoop frame retries outcomes, calls_exchangeLoop frame retries outcomes⟩

/-- A first success ends the loop in its first iteration under either bound. -/
theorem meetsRetryBound_of_first (frame : List UInt8) (retries : UInt32)
    {outcomes : ℕ → ReceiveExit} (hfirst : (outcomes 0).returned = true) :
    MeetsRetryBound frame retries outcomes := by
  have hmeant : (1 : ℕ∞) ≤ ((max retries.toNat 1 : ℕ) : ℕ∞) := by
    exact_mod_cast le_max_right _ _
  have hmade : (1 : ℕ∞) ≤ (attempts retries : ℕ∞) := by
    exact_mod_cast one_le_attempts retries
  obtain ⟨n, hn, hwrites⟩ := writes_exchangeLoop frame retries outcomes
  rw [firstSuccess_of_first hfirst, min_eq_left hmade] at hn
  refine ⟨⟨n, ?_, hwrites⟩, ?_⟩
  · rw [firstSuccess_of_first hfirst, min_eq_left hmeant, hn]
  · rw [calls_exchangeLoop, firstSuccess_of_first hfirst, if_pos hmade, if_pos hmeant]

/-- From `retries = 0` the loop goes on after a failure, where it is meant to end. -/
theorem not_meetsRetryBound_zero (frame : List UInt8) {outcomes : ℕ → ReceiveExit}
    (hfirst : (outcomes 0).returned = false) : ¬ MeetsRetryBound frame 0 outcomes := by
  rintro ⟨⟨meant, hmeant, hwrites⟩, -⟩
  obtain ⟨made, hmade, hwrites'⟩ := writes_exchangeLoop frame 0 outcomes
  -- the frame is written once for each iteration that is made
  have hsame : meant = made := by
    have := congrArg List.length (hwrites.symm.trans hwrites')
    simpa using this
  have hone : (meant : ℕ∞) ≤ 1 := by
    rw [hmeant]
    exact min_le_right _ _
  have htwo : (2 : ℕ∞) ≤ (made : ℕ∞) := by
    rw [hmade]
    refine le_min ?_ ?_
    · rw [firstSuccess_of_later hfirst]
      calc (2 : ℕ∞) = 1 + 1 := by norm_num
        _ ≤ _ := add_le_add_left (one_le_firstSuccess _) 1
    · exact_mod_cast (by decide : 2 ≤ attempts 0)
  have h₁ : meant ≤ 1 := by exact_mod_cast hone
  have h₂ : 2 ≤ made := by exact_mod_cast htwo
  omega

/-- **The retry loop.**  The loop keeps the bound that is meant exactly if `global_retries`
is not zero or the first `receive` succeeds. -/
theorem retry_bound_iff (frame : List UInt8) (retries : UInt32) (outcomes : ℕ → ReceiveExit) :
    MeetsRetryBound frame retries outcomes ↔ retries ≠ 0 ∨ (outcomes 0).returned = true := by
  constructor
  · intro hmeets
    by_contra hneither
    obtain ⟨hzero, hfirst⟩ := not_or.mp hneither
    obtain rfl := not_not.mp hzero
    exact not_meetsRetryBound_zero frame (by simpa using hfirst) hmeets
  · rintro (hne | hfirst)
    · exact meetsRetryBound_of_ne_zero frame hne outcomes
    · exact meetsRetryBound_of_first frame retries hfirst

/-- With no retries allowed and a status error first, the frame is written again. -/
theorem retry_bound_zero :
    ¬ MeetsRetryBound [0x7E] 0 fun k => if k = 0 then .statusError else
      .delivered { length := 15, address := 0, data := [], status := 0, command := [] } :=
  not_meetsRetryBound_zero [0x7E] rfl

end XbeeAssignment.XBee
