import XbeeAssignment.Timer.Decisions

/-!
# The tick counter never runs ahead

How far the ticks can fall behind the clock is one question, `KeepsUp`; whether
they can run ahead of it is the other.  A tick is counted only if `sign` is not
positive, and then the target is less than a millisecond after the reading,
whichever way the microseconds were rounded (`exactSign_bounds`).  So the
target is never two milliseconds ahead, and one that close is not mistaken for one
that is due (`exactSign_nonpos`), since an `int` keeps small numbers.

Nothing is asked of the time between two readings: they may be equal.
-/

namespace XbeeAssignment.Timer.Clock

/-- Readings of a clock that does not go back, none of them treated as a time jump. -/
structure Unbroken (readings : ℕ → Timeval) : Prop where
  normalised : ∀ n, (readings n).Normalised
  monotone : ∀ n, (readings n).micros ≤ (readings (n + 1)).micros
  no_jump : ∀ n, ¬ TimeJump (readings n) (readings (n + 1))

/-- A target less than two milliseconds ahead that is found to be due is due. -/
theorem exactSign_nonpos {absTimer now : Timeval} (hclose : absTimer.micros < now.micros + 2000)
    (hsign : sign absTimer now ≤ 0) : exactSign absTimer now ≤ 0 := by
  have hlow := (exactSign_bounds absTimer now).1
  have hlt : exactSign absTimer now < 3 := by omega
  rw [sign_eq, asInt_nonpos_iff] at hsign
  omega

variable {readings : ℕ → Timeval}

/-- One pass: the reading does not go back, and a tick is counted only if it is due. -/
theorem pass_micros_lt {c : Clock} {reading : Timeval} (hjump : ¬ TimeJump c.now reading)
    (hle : c.now.micros ≤ reading.micros) (hlt : c.absTimer.micros < c.now.micros + 2000) :
    (c.pass reading).absTimer.micros < reading.micros + 2000 := by
  have hclose : c.absTimer.micros < reading.micros + 2000 := by omega
  rcases pass_cases hjump with ⟨hsign, hpass⟩ | ⟨-, hpass⟩
  · have hdue := micros_lt_of_exactSign (exactSign_nonpos hclose hsign)
    rw [hpass, micros_advance]
    omega
  · rw [hpass]
    exact hclose

theorem Unbroken.absTimer_lt (h : Unbroken readings) (n : ℕ) :
    (after readings n).absTimer.micros < (readings n).micros + 2000 := by
  induction n with
  | zero => exact Int.lt_add_of_pos_right _ (by decide)
  | succ n ih =>
      refine pass_micros_lt (not_timeJump_after h.no_jump n) ?_ ?_
      · rw [after_now]
        exact h.monotone n
      · rw [after_now]
        exact ih

/-- **Never ahead.**  After every pass the target is normalised, is the first reading and a
millisecond for every tick counted, and is less than two milliseconds after the reading; the
counter is the number of ticks modulo 2³¹. -/
theorem never_ahead (readings : ℕ → Timeval) (h : Unbroken readings) (n : ℕ) :
    (after readings n).absTimer.Normalised ∧
      (after readings n).absTimer.micros =
        (readings 0).micros + 1000 * (after readings n).ticks ∧
      (after readings n).absTimer.micros < (readings n).micros + 2000 ∧
      (after readings n).monotonic.toNat = (after readings n).ticks % 2 ^ 31 := by
  have hkept := after_kept (h.normalised 0) h.no_jump n
  exact ⟨hkept.normalised, hkept.absTimer, h.absTimer_lt n, hkept.monotonic⟩

/-- Ten passes within the same microsecond. -/
theorem never_ahead_standing :
    Unbroken (fun _ => ⟨7, 999999⟩) ∧
      (after (fun _ => ⟨7, 999999⟩) 10).absTimer.micros < 8001999 := by
  have hunbroken : Unbroken fun _ => ⟨7, 999999⟩ :=
    { normalised := fun _ => ⟨by decide, by decide⟩
      monotone := fun _ => le_refl _
      no_jump := fun _ => by decide }
  exact ⟨hunbroken, (never_ahead _ hunbroken 10).2.2.1⟩

/-- The ticks counted are at most two more than the milliseconds elapsed. -/
theorem Unbroken.ticks_lt (h : Unbroken readings) (n : ℕ) :
    1000 * ((after readings n).ticks : ℤ) < elapsedMicros readings n + 2000 := by
  have htarget := (after_kept (h.normalised 0) h.no_jump n).absTimer
  have hlt := h.absTimer_lt n
  unfold elapsedMicros
  omega

end XbeeAssignment.Timer.Clock
