import Mathlib.Tactic.Common

/-!
# A counter that starts over

A counter counts `0, 1, …, period - 1, 0, …`.  A reader that remembers where it
started adds the period to every reading below its start (`unwrap`), and so has
the counter's true distance from the start for as long as less than one period has
passed (`unwrap_mod`).
-/

namespace WrapCounter

variable {period start elapsed n : ℕ}

/-- The next value of the counter. -/
def succ (period n : ℕ) : ℕ :=
  if period ≤ n + 1 then 0 else n + 1

/-- The reading, corrected for at most one start over. -/
def unwrap (period start now : ℕ) : ℕ :=
  if now < start then now + period else now

theorem succ_eq_mod (hn : n < period) : succ period n = (n + 1) % period := by
  unfold succ
  split
  · next hle =>
      have hlast : n + 1 = period := by omega
      rw [hlast, Nat.mod_self]
  · next hlt => rw [Nat.mod_eq_of_lt (by omega)]

/-- A counter that has counted to `n` counts to `n + 1`. -/
theorem succ_mod (hpos : 0 < period) (n : ℕ) : succ period (n % period) = (n + 1) % period := by
  rw [succ_eq_mod (Nat.mod_lt n hpos), Nat.mod_add_mod]

/-- Less than a period after the start the corrected reading has not started over. -/
theorem unwrap_mod (hstart : start < period) (helapsed : elapsed < period) :
    unwrap period start ((start + elapsed) % period) = start + elapsed := by
  unfold unwrap
  rcases Nat.lt_or_ge (start + elapsed) period with hlt | hge
  · rw [Nat.mod_eq_of_lt hlt, if_neg (by omega)]
  · -- the counter has started over once, and stands below its start
    have hmod : (start + elapsed) % period = start + elapsed - period := by
      rw [Nat.mod_eq_sub_mod hge, Nat.mod_eq_of_lt (by omega)]
    rw [hmod, if_pos (by omega), Nat.sub_add_cancel hge]

end WrapCounter
