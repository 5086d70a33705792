import XbeeAssignment.Timer.NeverAhead
import XbeeAssignment.Timer.Pause

/-!
# Timers and real time

A timer counts ticks, and what its user means are milliseconds.  The two are tied
together by the main loop, one tick a pass at most.

* Whatever the clock does, a timer of `d` ticks expires after `d` passes at the
  earliest, since no pass counts more than one tick.  With a millisecond or more a
  pass that is never early.
* Without time jumps it expires exactly when `d` milliseconds have elapsed and the main
  loop has made up for whatever its lag has grown by since `Set` (`timer_against_clock`).

Over a run with time jumps the ticks are bounded by the time the clock went on in the
passes without one, and by little more than a second a jump (`ticks_le_of_jumps`): that
is how far ahead of the reading a clock that creeps back within its second can leave the
target.
-/

namespace XbeeAssignment.Timer.Clock

open Transition

variable {long : LongWidth} {readings : ℕ → Timeval}

/-! ## The ticks between two passes -/

/-- The ticks a pass counts. -/
theorem pass_ticks (c : Clock) (reading : Timeval) :
    (c.pass reading).ticks = c.ticks + (if sign (c.target reading) reading ≤ 0 then 1 else 0) ∧
      (c.pass reading).monotonic =
        tick^[if sign (c.target reading) reading ≤ 0 then 1 else 0] c.monotonic := by
  unfold pass
  split <;> exact ⟨rfl, rfl⟩

theorem ticks_after_add_le (readings : ℕ → Timeval) (m k : ℕ) :
    (after readings m).ticks ≤ (after readings (m + k)).ticks ∧
      (after readings (m + k)).ticks ≤ (after readings m).ticks + k := by
  induction k with
  | zero => exact ⟨le_rfl, le_rfl⟩
  | succ k ih =>
      rw [← Nat.add_assoc, after, (pass_ticks _ _).1]
      split <;> omega

/-- The counter is the number of ticks, started over at every period. -/
theorem monotonic_eq_iterate (readings : ℕ → Timeval) (n : ℕ) :
    (after readings n).monotonic = tick^[(after readings n).ticks] 0 := by
  induction n with
  | zero => rfl
  | succ n ih =>
      rw [after, (pass_ticks _ _).1, (pass_ticks _ _).2, ih, ← Function.iterate_add_apply,
        Nat.add_comm]

theorem monotonic_after_add (readings : ℕ → Timeval) {m n : ℕ} (hmn : m ≤ n) :
    (after readings n).monotonic =
      tick^[(after readings n).ticks - (after readings m).ticks] (after readings m).monotonic := by
  obtain ⟨k, rfl⟩ := Nat.exists_eq_add_of_le hmn
  have hle := (ticks_after_add_le readings m k).1
  rw [monotonic_eq_iterate, monotonic_eq_iterate readings m, ← Function.iterate_add_apply,
    Nat.sub_add_cancel hle]

theorem monotonic_lt (readings : ℕ → Timeval) (n : ℕ) :
    (after readings n).monotonic.toNat < 2 ^ 31 := by
  rw [monotonic_eq_iterate]
  exact iterate_tick_lt (by decide) _

/-! ## A timer set in one pass and polled in another -/

/-- What `Timeout` returns after pass `n` of a timer that was set to `value` after pass `m`. -/
def timeoutAt (toInt : ℚ → Int32) (memory : Vtmr long) (readings : ℕ → Timeval) (value : ℚ)
    (m n : ℕ) : ℤ :=
  (timeout (.running (after readings n).monotonic)
    (set toInt (.running (after readings m).monotonic) value memory)).1

/-- A timer of `d` ticks has expired if it has seen them in the period it is in. -/
theorem timeoutAt_eq {toInt : ℚ → Int32} (memory : Vtmr long) {value : ℚ} {d m n : ℕ}
    (hvalue : value ≠ -1)
    (htics : (tics toInt (.running (after readings m).monotonic) value).toInt = d) (hmn : m ≤ n) :
    timeoutAt toInt memory readings value m n =
      if d ≤ ((after readings n).ticks - (after readings m).ticks) % 2 ^ 31 then 1 else 0 := by
  have hs := monotonic_lt readings m
  have hbound := (tics toInt (.running (after readings m).monotonic) value).toInt_lt
  have hpoll := timeout_advance_set toInt memory hs hvalue
    ((after readings n).ticks - (after readings m).ticks)
  rw [advance_running, ← monotonic_after_add readings hmn, htics] at hpoll
  refine hpoll.trans ?_
  by_cases hle : d ≤ ((after readings n).ticks - (after readings m).ticks) % 2 ^ 31
  · rw [if_pos hle, if_neg (by omega)]
  · rw [if_neg hle, if_pos (by omega)]

theorem elapsedMicros_add_le (hapart : ∀ k, (readings k).micros + 1000 ≤ (readings (k + 1)).micros)
    (m k : ℕ) : elapsedMicros readings m + 1000 * k ≤ elapsedMicros readings (m + k) := by
  induction k with
  | zero => simp
  | succ k ih =>
      have hstep := hapart (m + k)
      unfold elapsedMicros at ih ⊢
      rw [← Nat.add_assoc]
      push_cast
      omega

/-- The lag is the time elapsed less the ticks. -/
theorem Unbroken.lag_eq (h : Unbroken readings) (n : ℕ) :
    (after readings n).lag = elapsedMicros readings n - 1000 * (after readings n).ticks := by
  have htarget := (after_kept (h.normalised 0) h.no_jump n).absTimer
  rw [lag, after_now, htarget, elapsedMicros]
  omega

/-- **Timers against the clock.**  A timer that was armed for `d` ticks after pass `m` is found
expired after pass `n`: whatever the clock does, only if `d` passes have been made since, and so
only if `d` milliseconds have elapsed on a clock that goes on by a millisecond or more a pass.
Without time jumps and for less than a period of ticks, exactly if `d` milliseconds have elapsed
beyond what the main loop's lag has grown by. -/
theorem timer_against_clock (toInt : ℚ → Int32) (memory : Vtmr long) (readings : ℕ → Timeval)
    (value : ℚ) (d m n : ℕ) (hvalue : value ≠ -1)
    (htics : (tics toInt (.running (after readings m).monotonic) value).toInt = d) (hmn : m ≤ n) :
    (timeoutAt toInt memory readings value m n = 1 → d ≤ n - m) ∧
      ((∀ k, (readings k).micros + 1000 ≤ (readings (k + 1)).micros) →
        timeoutAt toInt memory readings value m n = 1 →
          1000 * (d : ℤ) ≤ elapsedMicros readings n - elapsedMicros readings m) ∧
      (Unbroken readings → (after readings n).ticks < (after readings m).ticks + 2 ^ 31 →
        (timeoutAt toInt memory readings value m n = 1 ↔
          1000 * (d : ℤ) + ((after readings n).lag - (after readings m).lag) ≤
            elapsedMicros readings n - elapsedMicros readings m)) := by
  rw [timeoutAt_eq memory hvalue htics hmn]
  obtain ⟨k, rfl⟩ := Nat.exists_eq_add_of_le hmn
  obtain ⟨hlow, hhigh⟩ := ticks_after_add_le readings m k
  have hexpired : ∀ e : ℕ, (if d ≤ e then (1 : ℤ) else 0) = 1 ↔ d ≤ e := by
    intro e
    by_cases hle : d ≤ e <;> simp [hle]
  rw [hexpired]
  have hmod := Nat.mod_le ((after readings (m + k)).ticks - (after readings m).ticks) (2 ^ 31)
  refine ⟨fun hle => by omega, fun hapart hle => ?_, fun hunbroken hperiod => ?_⟩
  · -- a pass takes a millisecond or more
    have helapsed := elapsedMicros_add_le hapart m k
    omega
  · rw [Nat.mod_eq_of_lt (by omega), hunbroken.lag_eq, hunbroken.lag_eq]
    omega

/-- One tick with passes of exactly a millisecond. -/
theorem timer_against_clock_steady :
    timeoutAt (fun _ => 1) ({ mode := 7, start := 0, timeout := 0 } : Vtmr .bits32)
      (everyMicros 1000) (1 / 1000) 0 1 = 1 := by
  have hsteady := @steady_everyMicros 1000 (by decide) (by decide)
  have hunbroken : Unbroken (everyMicros 1000) :=
    { normalised := hsteady.normalised
      monotone := fun n => by have := hsteady.apart n; omega
      no_jump := hsteady.no_jump }
  have hticks : (after (everyMicros 1000) 1).ticks < (after (everyMicros 1000) 0).ticks + 2 ^ 31 :=
    (ticks_after_le _ 1).trans_lt (by omega)
  exact ((timer_against_clock (fun _ => 1) _ _ (1 / 1000) 1 0 1 (by norm_num) rfl
    (by decide)).2.2 hunbroken hticks).mpr (by rw [hunbroken.lag_eq, hunbroken.lag_eq]; decide)

/-! ## Runs with time jumps -/

/-- The time the clock goes on in the passes that see no time jump, in microseconds. -/
def travelled (c : Clock) : List Reading → ℤ
  | [] => 0
  | reading :: readings =>
      (if TimeJump c.now reading then 0 else reading.val.micros - c.now.micros) +
        travelled (c.pass reading) readings

/-- The passes that see a time jump. -/
def jumps (c : Clock) : List Reading → ℕ
  | [] => 0
  | reading :: readings =>
      (if TimeJump c.now reading then 1 else 0) + jumps (c.pass reading) readings

/-- The target is little more than a second after the reading. -/
theorem Near.lag_gt {c : Clock} (h : c.Near) : -1002000 < c.lag := by
  have hlt := h.lt
  have hnonneg := h.now.nonneg
  unfold lag
  rw [Timeval.micros.eq_1 c.now]
  omega

/-- What a pass counts is what the clock goes on by, less what the lag grows by; a time jump gives
up the lag. -/
theorem Near.pass_ticks_le {c : Clock} {reading : Reading} (h : c.Near) :
    1000 * ((c.pass reading).ticks : ℤ) + (c.pass reading).lag ≤
      1000 * (c.ticks : ℤ) + c.lag +
        (if TimeJump c.now reading then 0 else reading.val.micros - c.now.micros) +
        1002000 * ((if TimeJump c.now reading then 1 else 0 : ℕ) : ℤ) := by
  by_cases hjump : TimeJump c.now reading
  · have htarget : c.target reading = reading := if_pos hjump
    have hlag := h.lag_gt
    rw [if_pos hjump, if_pos hjump]
    unfold Clock.pass
    rw [if_pos (target_of_jump hjump).1, htarget]
    unfold lag at hlag ⊢
    rw [micros_advance]
    push_cast
    omega
  · rw [if_neg hjump, if_neg hjump]
    rcases pass_cases hjump with ⟨-, hpass⟩ | ⟨-, hpass⟩
    · rw [hpass]
      unfold lag
      rw [micros_advance]
      push_cast
      omega
    · rw [hpass]
      unfold lag
      dsimp only
      omega

/-- The same over a run. -/
theorem Near.run_ticks_le {c c' : Clock} {readings : List Reading} (h : c.Near)
    (hrun : Run (Guarded Representable (StepOf next)) c readings c') :
    c'.Near ∧ 1000 * (c'.ticks : ℤ) + c'.lag ≤
      1000 * (c.ticks : ℤ) + c.lag + travelled c readings + 1002000 * (jumps c readings : ℤ) := by
  induction readings generalizing c with
  | nil =>
      cases hrun
      refine ⟨h, ?_⟩
      simp [travelled, jumps]
  | cons reading readings ih =>
      obtain ⟨m, ⟨hrep, hnext⟩, hrest⟩ := hrun.exists_of_cons
      obtain rfl : c.pass reading = m := Option.some.inj hnext
      obtain ⟨hnear, hle⟩ := ih (h.pass hrep) hrest
      have hpass := @Near.pass_ticks_le c reading h
      refine ⟨hnear, ?_⟩
      rw [travelled, jumps]
      push_cast at hpass ⊢
      omega

/-- **Ticks over time jumps.**  In every run whose numbers are representable the ticks counted are
no more milliseconds than the clock went on by in the passes without a time jump, and 1002 for the
run and for every time jump in it. -/
theorem ticks_le_of_jumps (first : Reading) (readings : List Reading) (c : Clock)
    (hrun : Run (Guarded Representable (StepOf next)) (start first) readings c) :
    1000 * (c.ticks : ℤ) ≤
      travelled (start first) readings + 1002000 * ((jumps (start first) readings : ℤ) + 1) := by
  obtain ⟨hnear, hle⟩ := (start_near first.property).run_ticks_le hrun
  have hlag := hnear.lag_gt
  have hstart : (start first).lag = 0 := sub_self _
  have hticks : (start first).ticks = 0 := rfl
  rw [hstart, hticks] at hle
  omega

/-- The clock is set forward by a hundred seconds, which is seen: no time is taken to have
passed. -/
theorem ticks_le_of_jumps_forward :
    ∃ c, Run (Guarded Representable (StepOf next)) (start ⟨0, 0⟩)
        [⟨⟨100, 0⟩, by decide, by decide⟩] c ∧
      1000 * (c.ticks : ℤ) ≤ 0 + 1002000 * ((1 : ℕ) + 1) := by
  have hjump : ExactJump (start ⟨0, 0⟩).now ⟨100, 0⟩ := .inr (by decide)
  have hrep : Representable (start ⟨0, 0⟩) ⟨⟨100, 0⟩, by decide, by decide⟩ :=
    { dif := fun hrange => absurd hrange (by decide), lag := fun hno => absurd hjump hno }
  have hrun : Run (Guarded Representable (StepOf next)) (start ⟨0, 0⟩)
      [⟨⟨100, 0⟩, by decide, by decide⟩] _ := .cons ⟨hrep, rfl⟩ (.nil _)
  exact ⟨_, hrun, ticks_le_of_jumps ⟨⟨0, 0⟩, by decide, by decide⟩ _ _ hrun⟩

end XbeeAssignment.Timer.Clock
