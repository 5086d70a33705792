import XbeeAssignment.Lib.Truncation
import XbeeAssignment.Timer.Expiry
import Mathlib.Data.Rat.Floor
import Mathlib.Tactic.Linarith

/-!
# The clamp in `Set`

`Set` waits for no more than `VTMR_MAXTIMEOUT`, three years.  That is within a
period of the counter at 18.2 ticks a second, which the comments of `timer.h`
reckon with; at `TIMER_FREQ`, a thousand, the counter starts over after 25 days.
The clamp therefore never takes effect before the number of ticks has outgrown an
`int` (`clamp_keeps_iff`).
-/

namespace XbeeAssignment.Timer

open Truncation Polling

/-- A `double` converted to `int`. -/
abbrev IntConversion := Conversion ℚ Int32.toInt (-2 ^ 31) (2 ^ 31 - 1)

/-- The conversion that gives `other` beyond the range of `int`. -/
def IntConversion.withDefault (other : Int32) : IntConversion :=
  Conversion.withDefault Int32.ofInt
    (fun _ hlow hhigh => Int32.toInt_ofInt_of_le hlow (Int.lt_of_le_sub_one hhigh)) other

/-- The product in `Set`: the number of ticks it waits for, as a rational. -/
def clampedTics (value : ℚ) : ℚ := min value vtmrMaxTimeout * timerFreq

theorem tics_running (toInt : ℚ → Int32) (s : UInt32) (value : ℚ) :
    tics toInt (.running s) value = toInt (clampedTics value) := by
  have hmin : (if value < vtmrMaxTimeout then value else vtmrMaxTimeout) =
      min value vtmrMaxTimeout := by
    by_cases hlt : value < vtmrMaxTimeout
    · rw [if_pos hlt, min_eq_left hlt.le]
    · rw [if_neg hlt, min_eq_right (not_lt.mp hlt)]
  rw [tics, hmin]
  rfl

theorem clampedTics_nonneg {value : ℚ} (hvalue : 0 ≤ value) : 0 ≤ clampedTics value :=
  mul_nonneg (le_min hvalue (by norm_num [vtmrMaxTimeout])) (by norm_num [timerFreq])

theorem clampedTics_nonpos {value : ℚ} (hvalue : value ≤ 0) : clampedTics value ≤ 0 :=
  mul_nonpos_of_nonpos_of_nonneg ((min_le_left _ _).trans hvalue) (by norm_num [timerFreq])

theorem clampedTics_le (value : ℚ) : clampedTics value ≤ value * 1000 :=
  mul_le_mul_of_nonneg_right (min_le_left _ _) (by norm_num [timerFreq])

/-- Durations that fit in an `int` of ticks are below the clamp. -/
theorem clampedTics_of_lt {value : ℚ} (hvalue : value * 1000 < 2 ^ 31) :
    clampedTics value = value * 1000 := by
  have hlt : value < vtmrMaxTimeout := by
    unfold vtmrMaxTimeout
    linarith
  rw [clampedTics, min_eq_left hlt.le]
  rfl

/-- The others do not fit with the clamp either. -/
theorem le_clampedTics {value : ℚ} (hvalue : 2 ^ 31 ≤ value * 1000) :
    2 ^ 31 ≤ clampedTics value := by
  have hmin : 2147483648 / 1000 ≤ min value vtmrMaxTimeout := by
    apply le_min
    · linarith
    · unfold vtmrMaxTimeout
      norm_num
  unfold clampedTics timerFreq
  linarith

/-! ## What the clamp keeps -/

/-- The product fits in an `int`, the timeout is that many ticks ahead, and they are less than a
period of the counter. -/
structure ClampKeeps (conv : IntConversion) (now : UInt32) (value : ℚ) (memory : Vtmr long) :
    Prop where
  fits : Fits (-2 ^ 31) (2 ^ 31 - 1) (clampedTics value)
  timeout : ((set conv.convert (.running now) value memory).timeout.toNat : ℤ) =
    now.toNat + ⌊min value vtmrMaxTimeout * 1000⌋
  lt_period : ⌊min value vtmrMaxTimeout * 1000⌋ < vtmrWraparound.toNat

/-- **The clamp.**  `Set` arms a duration that is representable exactly if it is below 2³¹ ticks to
begin with, that is, below 2147483.648 seconds. -/
theorem clamp_keeps_iff (conv : IntConversion) (now : UInt32) (value : ℚ) (memory : Vtmr long)
    (hvalue : 0 ≤ value) (hnow : now.toNat < 2 ^ 31) :
    ClampKeeps conv now value memory ↔ value * 1000 < 2 ^ 31 := by
  have hnonneg : 0 ≤ clampedTics value := clampedTics_nonneg hvalue
  constructor
  · intro hkeeps
    by_contra hlarge
    have hle : ((2 ^ 31 : ℤ) : ℚ) ≤ clampedTics value := by
      push_cast
      exact le_clampedTics (not_lt.mp hlarge)
    have hfloor : 2 ^ 31 ≤ ⌊clampedTics value⌋ := Int.le_floor.mpr hle
    have hfits := hkeeps.fits.2
    rw [truncate_of_nonneg hnonneg] at hfits
    omega
  · intro hlt
    have hclamped : clampedTics value = value * 1000 := clampedTics_of_lt hlt
    have hmin : min value vtmrMaxTimeout * 1000 = clampedTics value := rfl
    have hfloor : 0 ≤ ⌊clampedTics value⌋ ∧ ⌊clampedTics value⌋ < 2 ^ 31 := by
      refine ⟨Int.floor_nonneg.mpr hnonneg, Int.floor_lt.mpr ?_⟩
      rw [hclamped]
      push_cast
      exact hlt
    have hfits : Fits (-2 ^ 31) (2 ^ 31 - 1) (clampedTics value) := by
      rw [Fits, truncate_of_nonneg hnonneg]
      omega
    obtain ⟨d, hd⟩ := Int.eq_ofNat_of_zero_le hfloor.1
    have htics : (tics conv.convert (.running now) value).toInt = d := by
      rw [tics_running, conv.value_convert _ hfits, truncate_of_nonneg hnonneg, hd]
    have hne : value ≠ -1 := by
      rintro rfl
      exact absurd hvalue (by norm_num)
    refine { fits := hfits, timeout := ?_, lt_period := ?_ }
    · rw [hmin, hd]
      exact_mod_cast (armed_armed memory hnow hne htics).timeout
    · rw [hmin, toNat_vtmrWraparound]
      exact_mod_cast hfloor.2

/-- An hour. -/
theorem clamp_keeps_hour :
    ClampKeeps (IntConversion.withDefault 0) 0x7FFFFFFF 3600
      ({ mode := 7, start := 0, timeout := 0 } : Vtmr .bits64) :=
  (clamp_keeps_iff _ _ _ _ (by norm_num) (by decide)).mpr (by norm_num)

/-- A month of 30 days, far below the maximum timeout of three years. -/
theorem not_clamp_keeps_month :
    ¬ ClampKeeps (IntConversion.withDefault 0) 0 2592000
      ({ mode := 7, start := 0, timeout := 0 } : Vtmr .bits32) := by
  intro hkeeps
  rw [clamp_keeps_iff _ _ _ _ (by norm_num) (by decide)] at hkeeps
  exact absurd hkeeps (by norm_num)

end XbeeAssignment.Timer
