import XbeeAssignment.Timer.Expiry

/-!
# The elapsed time

`Timeout` and `Remain` add the counter's period to a counter that stands below
`start`; `Elapsed` does not.  It returns the difference of the two as they are,
which is the time since `Set` until the counter starts over, and that time less a
period, a negative number, from then on (`elapsed_agrees_iff`).

`Started` is the part of `Armed` that `Elapsed` rests on.  It has no duration in
it and holds of a run of any length, of a timer that is never to expire too.
-/

namespace XbeeAssignment.Timer

open Transition

variable {long : LongWidth}

namespace Polling

/-! ## The invariant -/

/-- The timer was set at `s`, for whatever time. -/
structure Started (s : ℕ) (p : Polling long) : Prop where
  ticsPerSec : p.statics.ticsPerSec = timerFreq
  monotonic : p.statics.monotonic.toNat = (s + p.elapsed) % 2 ^ 31
  start : p.timer.start.toNat = s
  mode : p.timer.mode ≠ VtmrMode.uninitialized

variable {s : ℕ} {p : Polling long}

theorem armed_started (toInt : ℚ → Int32) {start : UInt32} (value : ℚ) (memory : Vtmr long)
    (hstart : start.toNat < 2 ^ 31) : Started start.toNat (armed toInt start value memory) := by
  have hmonotonic : start.toNat = (start.toNat + 0) % 2 ^ 31 := (Nat.mod_eq_of_lt hstart).symm
  unfold armed set
  by_cases hvalue : value = -1
  · rw [if_pos hvalue]
    exact { ticsPerSec := rfl, monotonic := hmonotonic, start := by simp [Statics.running],
            mode := VtmrMode.never_ne_uninitialized }
  · rw [if_neg hvalue]
    exact { ticsPerSec := rfl, monotonic := hmonotonic, start := by simp [Statics.running],
            mode := VtmrMode.active_ne_uninitialized }

/-- A poll keeps the start. -/
theorem Started.poll (h : Started s p) {timer : Vtmr long} (answer : Answer)
    (htimer : (timer = p.timer ∧ p.timer.mode ≠ VtmrMode.uninitialized) ∨
      timer = { p.timer with mode := VtmrMode.done }) :
    Started s { p with timer := timer, answers := p.answers ++ [answer] } := by
  rcases htimer with ⟨rfl, -⟩ | rfl
  · exact { h with }
  · exact { h with mode := VtmrMode.done_ne_uninitialized }

theorem Started.step (h : Started s p) (event : TimerEvent) : Started s (p.step event) := by
  cases event with
  | tick => exact { h with monotonic := toNat_tick_of_mod h.monotonic }
  | timeout =>
      apply h.poll
      rcases timeout_cases p.statics p.timer with ⟨htimeout, hmode⟩ | htimeout
      · exact .inl ⟨congrArg Prod.snd htimeout, hmode⟩
      · exact .inr (congrArg Prod.snd htimeout)
  | remain => exact h.poll _ (remain_cases p.statics p.timer)

theorem Started.run {events : List TimerEvent} {p q : Polling long}
    (hrun : Run (StepOf next) p events q) (h : Started s p) : Started s q := by
  refine hrun.invariant ?_ h
  rintro p event _ hp ⟨⟩
  exact hp.step event

/-! ## `Elapsed` -/

/-- `Elapsed` is right until the counter starts over, and wrong from then on. -/
theorem Started.elapsed_eq_iff (h : Started s p) :
    Timer.elapsed p.statics p.timer = (p.elapsed : ℚ) / 1000 ↔ s + p.elapsed < 2 ^ 31 := by
  have hvalue : Timer.elapsed p.statics p.timer =
      (((s + p.elapsed) % 2 ^ 31 : ℕ) - (s : ℚ)) / 1000 := by
    calc Timer.elapsed p.statics p.timer
        = ((p.statics.monotonic.toNat : ℚ) - (p.timer.start.toNat : ℚ)) / p.statics.ticsPerSec :=
          if_neg h.mode
      _ = (((s + p.elapsed) % 2 ^ 31 : ℕ) - (s : ℚ)) / timerFreq := by
          rw [h.monotonic, h.start, h.ticsPerSec]
  have hticks : (((s + p.elapsed) % 2 ^ 31 : ℕ) - (s : ℚ)) / 1000 = (p.elapsed : ℚ) / 1000 ↔
      (s + p.elapsed) % 2 ^ 31 = s + p.elapsed := by
    rw [div_left_inj' (by norm_num), sub_eq_iff_eq_add', ← Nat.cast_add, Nat.cast_inj]
  rw [hvalue, hticks]
  omega

/-- The elapsed time is the ticks since `Set`, and what remains makes up the duration. -/
structure AgreesWithRemain (d : ℕ) (p : Polling long) : Prop where
  elapsed : Timer.elapsed p.statics p.timer = (p.elapsed : ℚ) / 1000
  sum : Timer.elapsed p.statics p.timer + (Timer.remain p.statics p.timer).1 = (d : ℚ) / 1000
  nonneg : 0 ≤ Timer.elapsed p.statics p.timer

/-- **The elapsed time.**  At any point of a run before the duration has elapsed, `Elapsed` returns
the time since `Set`, and agrees with `Remain`, exactly if the counter has not started over. -/
theorem elapsed_agrees_iff (toInt : ℚ → Int32) (s : UInt32) (d : ℕ) (value : ℚ)
    (memory : Vtmr long) (hs : s.toNat < 2 ^ 31) (hvalue : value ≠ -1)
    (htics : (tics toInt (.running s) value).toInt = d) (events : List TimerEvent)
    (p : Polling long) (hrun : Run (StepOf next) (armed toInt s value memory) events p)
    (helapsed : p.elapsed < d) :
    AgreesWithRemain d p ↔ s.toNat + p.elapsed < 2 ^ 31 := by
  have hstarted : Started s.toNat p := Started.run hrun (armed_started toInt value memory hs)
  have hperiod : p.elapsed < 2 ^ 31 := by
    have hbound := (tics toInt (.running s) value).toInt_lt
    omega
  have harmed : Armed s.toNat d p :=
    Armed.run hrun hs (armed_armed memory hs hvalue htics) hperiod
  constructor
  · intro hagrees
    exact hstarted.elapsed_eq_iff.mp hagrees.elapsed
  · intro hlt
    have heq := hstarted.elapsed_eq_iff.mpr hlt
    refine { elapsed := heq, sum := ?_, nonneg := ?_ }
    · rw [heq, harmed.remain_eq hs hperiod, if_neg (not_le.mpr helapsed)]
      show (p.elapsed : ℚ) / 1000 + ((d : ℚ) - (p.elapsed : ℚ)) / 1000 = (d : ℚ) / 1000
      rw [← add_div, add_sub_cancel]
    · rw [heq]
      exact div_nonneg (Nat.cast_nonneg _) (by norm_num)

/-- A timer for five ticks, set two ticks before the counter starts over, after one of them. -/
theorem elapsed_agrees_before_wrap :
    ∃ p, Run (StepOf next) (armed (fun _ => 5) 0x7FFFFFFE (1 / 200)
        ({ mode := 7, start := 0, timeout := 0 } : Vtmr .bits32)) [.tick, .timeout] p ∧
      AgreesWithRemain 5 p := by
  have hrun : Run (StepOf next) (armed (fun _ => 5) 0x7FFFFFFE (1 / 200)
      ({ mode := 7, start := 0, timeout := 0 } : Vtmr .bits32)) [.tick, .timeout] _ :=
    run_iff_exec.mpr rfl
  exact ⟨_, hrun, (elapsed_agrees_iff (fun _ => 5) 0x7FFFFFFE 5 (1 / 200) _ (by decide)
    (by norm_num) rfl _ _ hrun (by decide)).mpr (by decide)⟩

/-- The same timer after two ticks: the counter has started over. -/
theorem not_elapsed_agrees_after_wrap :
    ∃ p, Run (StepOf next) (armed (fun _ => 5) 0x7FFFFFFE (1 / 200)
        ({ mode := 7, start := 0, timeout := 0 } : Vtmr .bits32)) [.tick, .tick] p ∧
      p.elapsed < 5 ∧ ¬ AgreesWithRemain 5 p := by
  have hrun : Run (StepOf next) (armed (fun _ => 5) 0x7FFFFFFE (1 / 200)
      ({ mode := 7, start := 0, timeout := 0 } : Vtmr .bits32)) [.tick, .tick] _ :=
    run_iff_exec.mpr rfl
  refine ⟨_, hrun, by decide, ?_⟩
  rw [elapsed_agrees_iff (fun _ => 5) 0x7FFFFFFE 5 (1 / 200) _ (by decide) (by norm_num) rfl _ _
    hrun (by decide)]
  decide

end Polling

end XbeeAssignment.Timer
