import XbeeAssignment.Lib.FloatRounding
import XbeeAssignment.Timer.Clamp
import XbeeAssignment.Timer.Elapsed

/-!
# `Timer` in `double`

`Set` multiplies the time by the tick rate, `Remain` and `Elapsed` divide ticks by it.
In `double` each operand and each result is rounded to 53 binary digits (`toDouble`).
`remainDouble` and `elapsedDouble` are what the two functions return then, and
`IntConversion.rounded` is the conversion that `set` takes.  None of the numbers is near the
bounds of the exponent, except a product that is too large for any integer type as well, and
what such a number is converted to is not assumed anyway.

A whole number of milliseconds that is divided by a thousand and multiplied by it comes out
as it was or just below, and is then a millisecond less after the conversion.  Which do is
`LosesMillisecond`, and what comes out `keptMilliseconds` (`truncate_milliseconds`).
-/

namespace XbeeAssignment.Timer

open Truncation FloatRounding

variable {long : LongWidth}

/-! ## The functions -/

/-- A number rounded to a `double`. -/
abbrev toDouble (x : ℚ) : ℚ := nearest 53 x

/-- The product in `Set` is a `double` that is converted to `int`. -/
def IntConversion.rounded (conv : IntConversion) (product : ℚ) : Int32 :=
  conv.convert (toDouble product)

/-- What `Remain` returns: the quotient is rounded, `0` and `-1` are not. -/
def remainDouble (statics : Statics) (timer : Vtmr long) : ℚ :=
  if 0 < (remain statics timer).1 then
    toDouble (toDouble
      (toDouble timer.timeout.toNat - toDouble (unwrapNow statics timer).toNat) /
        statics.ticsPerSec)
  else (remain statics timer).1

/-- What `Elapsed` returns. -/
def elapsedDouble (statics : Statics) (timer : Vtmr long) : ℚ :=
  if timer.mode = VtmrMode.uninitialized then -1
  else
    toDouble (toDouble (toDouble statics.monotonic.toNat - toDouble timer.start.toNat) /
      statics.ticsPerSec)

/-! ## Rounding the exact results -/

/-- What is below 2⁵³ is a `double`. -/
theorem toDouble_natCast {n : ℕ} (hn : n < 2 ^ 53) : toDouble n = n := nearest_natCast hn

/-- The quotient of two differences that are `double`s. -/
theorem toDouble_sub {a b : ℕ} (hle : b ≤ a) (ha : a < 2 ^ 53) :
    toDouble (toDouble a - toDouble b) = (a : ℚ) - b := by
  rw [toDouble_natCast ha, toDouble_natCast (hle.trans_lt ha), ← Nat.cast_sub hle,
    toDouble_natCast (by omega)]

/-- A time that remains is the ticks the counter is short of the timeout. -/
theorem remain_of_pos {statics : Statics} {timer : Vtmr long}
    (hpos : 0 < (remain statics timer).1) :
    (unwrapNow statics timer).toNat < timer.timeout.toNat ∧
      (remain statics timer).1 =
        ((timer.timeout.toNat : ℚ) - (unwrapNow statics timer).toNat) / statics.ticsPerSec := by
  unfold remain at hpos ⊢
  rcases settle_cases timer with ⟨hsettle, -⟩ | hsettle
  · rw [hsettle] at hpos ⊢
    dsimp only at hpos ⊢
    by_cases hdone : timer.mode = VtmrMode.done
    · simp [hdone] at hpos
    by_cases hnever : timer.mode = VtmrMode.never
    · rw [if_neg hdone, if_pos hnever] at hpos
      exact absurd hpos (by norm_num)
    by_cases hover : timer.timeout ≤ long.widen (unwrapNow statics timer)
    · simp [hdone, hnever, hover] at hpos
    rw [if_neg hdone, if_neg hnever, if_neg hover]
    rw [BitVec.le_def, LongWidth.toNat_widen, not_le] at hover
    exact ⟨hover, rfl⟩
  · rw [hsettle] at hpos
    simp at hpos

/-- `Remain` returns the exact result rounded, unless `timeout` is no number that `Set` stores. -/
theorem remainDouble_eq {statics : Statics} {timer : Vtmr long}
    (htimeout : timer.timeout.toNat < 2 ^ 53) :
    remainDouble statics timer =
      if 0 < (remain statics timer).1 then toDouble (remain statics timer).1
      else (remain statics timer).1 := by
  unfold remainDouble
  by_cases hpos : 0 < (remain statics timer).1
  · obtain ⟨hlt, heq⟩ := remain_of_pos hpos
    rw [if_pos hpos, if_pos hpos, toDouble_sub hlt.le htimeout, heq]
  · rw [if_neg hpos, if_neg hpos]

/-- `Elapsed` returns the exact result rounded, until the counter starts over. -/
theorem elapsedDouble_eq {statics : Statics} {timer : Vtmr long}
    (hmode : timer.mode ≠ VtmrMode.uninitialized)
    (hle : timer.start.toNat ≤ statics.monotonic.toNat) :
    elapsedDouble statics timer = toDouble (elapsed statics timer) := by
  have hlt := statics.monotonic.toNat_lt
  rw [elapsedDouble, if_neg hmode, toDouble_sub hle (by omega), elapsed, if_neg hmode]

/-- A time that `Elapsed` gets right is rounded once. -/
theorem elapsedDouble_of_elapsed {statics : Statics} {timer : Vtmr long} {n : ℕ}
    (hrate : statics.ticsPerSec = timerFreq) (helapsed : elapsed statics timer = (n : ℚ) / 1000) :
    elapsedDouble statics timer = toDouble (n / 1000) := by
  have hnonneg : (0 : ℚ) ≤ n / 1000 := by positivity
  have hmode : timer.mode ≠ VtmrMode.uninitialized := by
    intro hmode
    rw [elapsed, if_pos hmode] at helapsed
    linarith
  have hle : timer.start.toNat ≤ statics.monotonic.toNat := by
    rw [elapsed, if_neg hmode, hrate, timerFreq] at helapsed
    have hle' : (timer.start.toNat : ℚ) ≤ statics.monotonic.toNat := by linarith
    exact_mod_cast hle'
  rw [elapsedDouble_eq hmode hle, helapsed]

/-- `0` and `-1` are not rounded. -/
theorem remainDouble_of_nonpos {statics : Statics} {timer : Vtmr long}
    (hnonpos : (remain statics timer).1 ≤ 0) :
    remainDouble statics timer = (remain statics timer).1 :=
  if_neg (not_lt.mpr hnonpos)

/-- What remains of a timer is not rounded to nothing. -/
theorem remainDouble_pos {m : UInt32} {timer : Vtmr long}
    (hpos : 0 < (remain (.running m) timer).1) : 0 < remainDouble (.running m) timer := by
  obtain ⟨hlt, -⟩ := remain_of_pos hpos
  have hnow := (unwrapNow (.running m) timer).toNat_lt
  have hle : ((unwrapNow (.running m) timer).toNat : ℚ) + 1 ≤ timer.timeout.toNat := by
    exact_mod_cast hlt
  have hsmall : ((unwrapNow (.running m) timer).toNat : ℚ) < 2 ^ 32 := by exact_mod_cast hnow
  have htimeout := mul_le_nearest (p := 53) (Nat.cast_nonneg (α := ℚ) timer.timeout.toNat)
  have hdifference : 0 < toDouble timer.timeout.toNat -
      toDouble (unwrapNow (.running m) timer).toNat := by
    rw [toDouble_natCast (n := (unwrapNow (.running m) timer).toNat) (by omega), sub_pos]
    refine lt_of_lt_of_le ?_ htimeout
    linarith
  rw [remainDouble, if_pos hpos]
  refine nearest_pos (by omega) (div_pos (nearest_pos (by omega) hdifference) ?_)
  norm_num [Statics.running, timerFreq]

theorem remainDouble_nonneg {m : UInt32} {timer : Vtmr long}
    (hmode : timer.mode = VtmrMode.active) : 0 ≤ remainDouble (.running m) timer := by
  by_cases hpos : 0 < (remain (.running m) timer).1
  · exact (remainDouble_pos hpos).le
  · have hnonneg : 0 ≤ (remain (.running m) timer).1 := by
      rw [remain_of_active hmode]
      split
      · rename_i hlt
        have hle : ((unwrapNow (.running m) timer).toNat : ℚ) ≤ timer.timeout.toNat := by
          exact_mod_cast hlt.le
        exact div_nonneg (sub_nonneg.mpr hle) (by norm_num [Statics.running, timerFreq])
      · exact le_rfl
    rw [remainDouble_of_nonpos (not_lt.mp hpos)]
    exact hnonneg

/-! ## Ticks -/

/-- The ticks of a time: the product in `Set` without its fraction. -/
def doubleTics (value : ℚ) : ℤ :=
  truncate (toDouble (clampedTics value))

/-- Ticks that fit in an `int` are those `Set` adds. -/
theorem toInt_tics_rounded (conv : IntConversion) (s : UInt32) {value : ℚ}
    (hlow : -2 ^ 31 ≤ doubleTics value) (hhigh : doubleTics value < 2 ^ 31) :
    (tics conv.rounded (.running s) value).toInt = doubleTics value := by
  rw [tics_running]
  exact conv.value_convert _ ⟨hlow, Int.le_sub_one_of_lt hhigh⟩

theorem tics_rounded_withDefault (other : Int32) (s : UInt32) {value : ℚ}
    (hticks : doubleTics value < -2 ^ 31 ∨ 2 ^ 31 ≤ doubleTics value) :
    tics (IntConversion.withDefault other).rounded (.running s) value = other := by
  have hfits : ¬ Fits (-2 ^ 31) (2 ^ 31 - 1) (toDouble (clampedTics value)) := by
    rintro ⟨hlow, hhigh⟩
    unfold doubleTics at hticks
    omega
  rw [tics_running]
  exact Conversion.convert_withDefault_of_not_fits hfits

theorem doubleTics_nonneg {value : ℚ} (hvalue : 0 ≤ value) : 0 ≤ doubleTics value :=
  truncate_nonneg (nearest_nonneg _ (clampedTics_nonneg hvalue))

theorem doubleTics_nonpos {value : ℚ} (hvalue : value ≤ 0) : doubleTics value ≤ 0 :=
  truncate_nonpos (nearest_nonpos _ (clampedTics_nonpos hvalue))

theorem doubleTics_le {value : ℚ} (hvalue : 0 ≤ value) :
    (doubleTics value : ℚ) ≤ value * 1000 * (1 + 1 / 2 ^ 53) := by
  have hnonneg := clampedTics_nonneg hvalue
  calc (doubleTics value : ℚ) ≤ toDouble (clampedTics value) := by
        rw [doubleTics, truncate_of_nonneg (nearest_nonneg _ hnonneg)]
        exact Int.floor_le _
    _ ≤ clampedTics value * (1 + 1 / 2 ^ 53) := nearest_le_mul hnonneg
    _ ≤ value * 1000 * (1 + 1 / 2 ^ 53) :=
        mul_le_mul_of_nonneg_right (clampedTics_le value) (by norm_num)

theorem le_doubleTics {value : ℚ} {n : ℤ} (hvalue : 0 ≤ value)
    (hle : n ≤ clampedTics value * (1 - 1 / 2 ^ 53)) : n ≤ doubleTics value := by
  have hnonneg := clampedTics_nonneg hvalue
  rw [doubleTics, truncate_of_nonneg (nearest_nonneg _ hnonneg), Int.le_floor]
  exact hle.trans (mul_le_nearest hnonneg)

/-! ## Milliseconds -/

/-- A thousandth of `n` is rounded down, and its product with a thousand again, to less than `n`:
the first loses more than a quarter of the last place, which is so large only in the lower part of
the binary orders of the quotient. -/
def LosesMillisecond (n : ℕ) : Prop :=
  1000 * 2 ^ Nat.log 2 n ≤ 512 * n ∧ 256 < n * 2 ^ (61 - Nat.log 2 n) % 1000 ∧
    n * 2 ^ (61 - Nat.log 2 n) % 1000 < 500

instance (n : ℕ) : Decidable (LosesMillisecond n) := inferInstanceAs (Decidable (_ ∧ _ ∧ _))

theorem LosesMillisecond.pos {n : ℕ} (h : LosesMillisecond n) : 0 < n := by
  have hpow := Nat.two_pow_pos (Nat.log 2 n)
  have hlow := h.1
  omega

/-- The milliseconds that come out of `n`. -/
def keptMilliseconds (n : ℕ) : ℕ :=
  if LosesMillisecond n then n - 1 else n

theorem keptMilliseconds_le (n : ℕ) : keptMilliseconds n ≤ n := by
  unfold keptMilliseconds
  split <;> omega

theorem keptMilliseconds_eq_iff (n : ℕ) : keptMilliseconds n = n ↔ ¬ LosesMillisecond n := by
  unfold keptMilliseconds
  split
  · rename_i hloses
    have hpos := hloses.pos
    exact iff_of_false (by omega) (not_not_intro hloses)
  · rename_i hkept
    exact iff_of_true rfl hkept

/-- One millisecond is not enough to change the order. -/
theorem keptMilliseconds_mono {m n : ℕ} (hle : m ≤ n) :
    keptMilliseconds m ≤ keptMilliseconds n := by
  rcases Nat.eq_or_lt_of_le hle with rfl | hlt
  · exact le_rfl
  · have hm := keptMilliseconds_le m
    have hn : n - 1 ≤ keptMilliseconds n := by
      unfold keptMilliseconds
      split <;> omega
    omega

/-- The quotient, times a thousand: `δ` counts what is lost in units of the quotient's last place,
a thousandth each. -/
theorem exists_toDouble_div {n s : ℕ} (hs : 3 ≤ s) (hlow : 2 ^ 52 * 1000 ≤ n * 2 ^ s)
    (hhigh : n * 2 ^ s < 2 ^ 53 * 1000) :
    ∃ q δ : ℤ, (n * 2 ^ s : ℕ) + δ = 1000 * q ∧ -500 < δ ∧ δ < 500 ∧
      toDouble (n / 1000) * 1000 = n + δ / 2 ^ s := by
  have hpow : (0 : ℚ) < 2 ^ s := by positivity
  have habs : |(n : ℚ) / 1000| * 2 ^ s = ((n * 2 ^ s : ℕ) : ℚ) / 1000 := by
    rw [abs_of_nonneg (by positivity)]
    push_cast
    ring
  have hlow' : ((2 ^ 52 * 1000 : ℕ) : ℚ) ≤ ((n * 2 ^ s : ℕ) : ℚ) := by exact_mod_cast hlow
  have hhigh' : ((n * 2 ^ s : ℕ) : ℚ) < ((2 ^ 53 * 1000 : ℕ) : ℚ) := by exact_mod_cast hhigh
  have hquotient : toDouble (n / 1000) =
      nearestInt (((n * 2 ^ s : ℕ) : ℚ) / 1000) / 2 ^ s := by
    have hbinade : (n : ℚ) / 1000 * 2 ^ s = ((n * 2 ^ s : ℕ) : ℚ) / 1000 := by
      push_cast
      ring
    rw [← hbinade]
    apply nearest_eq_of_binade
    · rw [habs]
      push_cast at hlow' ⊢
      linarith
    · rw [habs]
      push_cast at hhigh' ⊢
      linarith
  -- no tie, since `n * 2 ^ s` is a multiple of eight
  obtain ⟨j, rfl⟩ := Nat.exists_eq_add_of_le hs
  have height : n * 2 ^ (3 + j) = 8 * (n * 2 ^ j) := by ring
  generalize n * 2 ^ j = m at height
  have herror := abs_le.mp (abs_nearestInt_sub_le (((n * 2 ^ (3 + j) : ℕ) : ℚ) / 1000))
  generalize nearestInt (((n * 2 ^ (3 + j) : ℕ) : ℚ) / 1000) = q at hquotient herror
  have hbounds : -500 ≤ 1000 * q - (n * 2 ^ (3 + j) : ℕ) ∧
      1000 * q - (n * 2 ^ (3 + j) : ℕ) ≤ 500 := by
    have hlow : ((-500 : ℤ) : ℚ) ≤ ((1000 * q - (n * 2 ^ (3 + j) : ℕ) : ℤ) : ℚ) := by
      push_cast at herror ⊢
      linarith [herror.1]
    have hhigh : ((1000 * q - (n * 2 ^ (3 + j) : ℕ) : ℤ) : ℚ) ≤ ((500 : ℤ) : ℚ) := by
      push_cast at herror ⊢
      linarith [herror.2]
    exact ⟨by exact_mod_cast hlow, by exact_mod_cast hhigh⟩
  refine ⟨q, 1000 * q - (n * 2 ^ (3 + j) : ℕ), by ring, ?_, ?_, ?_⟩
  · omega
  · omega
  · rw [hquotient]
    push_cast
    field_simp
    ring

theorem abs_div_pow_lt {δ : ℤ} {j : ℕ} (hlt : |δ| < 2 ^ j) : |(δ : ℚ) / 2 ^ j| < 1 := by
  rw [abs_div, abs_of_pos (a := (2 : ℚ) ^ j) (by positivity), div_lt_one (by positivity)]
  exact_mod_cast hlt

/-- The product, in units of its last place: it is off `n` by less than one of them. -/
theorem toDouble_add {n t j : ℕ} {δ : ℤ} (hlow : 2 ^ 52 < n * 2 ^ t ∨ (2 ^ 52 = n * 2 ^ t ∧ 0 ≤ δ))
    (hhigh : n * 2 ^ t + 1 < 2 ^ 53) (hδ : |(δ : ℚ) / 2 ^ j| < 1) :
    toDouble (n + δ / 2 ^ (t + j)) =
      nearestInt (((n * 2 ^ t : ℕ) : ℤ) + δ / 2 ^ j) / 2 ^ t := by
  rw [Int.cast_natCast]
  have hscaled : ((n : ℚ) + δ / 2 ^ (t + j)) * 2 ^ t = (n * 2 ^ t : ℕ) + δ / 2 ^ j := by
    rw [pow_add]
    push_cast
    field_simp
  have hnear := abs_lt.mp hδ
  have hlow' : 2 ^ 52 ≤ ((n * 2 ^ t : ℕ) : ℚ) + δ / 2 ^ j := by
    rcases hlow with hlt | ⟨heq, hnonneg⟩
    · have hle : ((2 ^ 52 + 1 : ℕ) : ℚ) ≤ (n * 2 ^ t : ℕ) := by exact_mod_cast hlt
      push_cast at hle ⊢
      linarith [hnear.1]
    · have hfraction : (0 : ℚ) ≤ δ / 2 ^ j := div_nonneg (by exact_mod_cast hnonneg) (by positivity)
      rw [← heq]
      push_cast
      linarith
  have hhigh' : ((n * 2 ^ t : ℕ) : ℚ) + δ / 2 ^ j < 2 ^ 53 := by
    have hle : ((n * 2 ^ t + 1 : ℕ) : ℚ) < (2 ^ 53 : ℕ) := by exact_mod_cast hhigh
    push_cast at hle ⊢
    linarith [hnear.2]
  have habs : |(n : ℚ) + δ / 2 ^ (t + j)| * 2 ^ t = (n * 2 ^ t : ℕ) + δ / 2 ^ j := by
    rw [← hscaled, ← abs_of_pos (a := (2 : ℚ) ^ t) (by positivity), ← abs_mul, abs_of_pos
      (a := (2 : ℚ) ^ t) (by positivity), hscaled, abs_of_nonneg (le_trans (by norm_num) hlow')]
  rw [toDouble, nearest_eq_of_binade (s := t) (by rw [habs]; linarith) (by rw [habs]; exact hhigh'),
    hscaled]

/-- What is a unit below `n` is cut off to a whole one below. -/
theorem truncate_div_pow {n t : ℕ} {z : ℤ} (hn : 0 < n) (ht : 0 < t)
    (hlow : (n * 2 ^ t : ℕ) - 1 ≤ z) (hhigh : z ≤ (n * 2 ^ t : ℕ) + 1) :
    truncate ((z : ℚ) / 2 ^ t) = if z < (n * 2 ^ t : ℕ) then (n : ℤ) - 1 else n := by
  have hpow : (0 : ℚ) < 2 ^ t := by positivity
  have htwo : 2 ≤ 2 ^ t := Nat.le_pow ht
  have hle : 2 ^ t ≤ n * 2 ^ t := Nat.le_mul_of_pos_left _ hn
  have hnonneg : (0 : ℚ) ≤ z / 2 ^ t := div_nonneg (by exact_mod_cast (by omega : 0 ≤ z)) hpow.le
  have hcast : ((n : ℚ) * 2 ^ t) = ((n * 2 ^ t : ℕ) : ℤ) := by push_cast; ring
  have hcast' : ((2 : ℚ) ^ t) = ((2 ^ t : ℕ) : ℤ) := by push_cast; ring
  rw [truncate_of_nonneg hnonneg]
  split
  · rename_i hless
    rw [Int.floor_eq_iff, le_div_iff₀ hpow, div_lt_iff₀ hpow]
    push_cast
    rw [sub_mul, one_mul, sub_add_cancel, hcast, hcast']
    exact ⟨by exact_mod_cast (by omega : ((n * 2 ^ t : ℕ) : ℤ) - (2 ^ t : ℕ) ≤ z),
      by exact_mod_cast hless⟩
  · rename_i hmore
    rw [Int.floor_eq_iff, le_div_iff₀ hpow, div_lt_iff₀ hpow]
    push_cast
    rw [add_mul, one_mul, hcast, hcast']
    exact ⟨by exact_mod_cast not_lt.mp hmore,
      by exact_mod_cast (by omega : z < ((n * 2 ^ t : ℕ) : ℤ) + (2 ^ t : ℕ))⟩

/-- In the lower part of a binary order the product is off by a unit if the quotient was off by
more than a quarter of its own. -/
theorem nearestInt_add_div {z δ : ℤ} (heven : Even z) (hlow : -512 < δ) (hhigh : δ < 512) :
    z - 1 ≤ nearestInt (z + δ / 2 ^ 9) ∧ nearestInt (z + δ / 2 ^ 9) ≤ z + 1 ∧
      (nearestInt (z + δ / 2 ^ 9) < z ↔ δ < -256) := by
  have hcast : (-512 : ℚ) < δ ∧ (δ : ℚ) < 512 :=
    ⟨by exact_mod_cast hlow, by exact_mod_cast hhigh⟩
  have hbelow : z - 1 ≤ nearestInt ((z : ℚ) + δ / 2 ^ 9) := by
    apply le_nearestInt
    push_cast
    linarith
  have habove : nearestInt ((z : ℚ) + δ / 2 ^ 9) ≤ z + 1 := by
    apply nearestInt_le
    push_cast
    linarith
  refine ⟨hbelow, habove, ?_⟩
  rcases lt_trichotomy δ (-256) with hless | rfl | hmore
  · have hcast' : (δ : ℚ) < -256 := by exact_mod_cast hless
    have hnearest : nearestInt ((z : ℚ) + δ / 2 ^ 9) = z - 1 := by
      apply nearestInt_eq_of_abs_lt
      rw [abs_lt]
      push_cast
      constructor <;> linarith
    exact iff_of_true (by omega) hless
  · -- a tie, and `z` is even
    have hnearest : nearestInt ((z : ℚ) + (-256 : ℤ) / 2 ^ 9) = z := by
      apply nearestInt_eq_of_half heven
      push_cast
      ring
    exact iff_of_false (by omega) (lt_irrefl _)
  · refine iff_of_false (not_lt.mpr ?_) (by omega)
    rcases lt_or_ge δ 0 with hneg | hnonneg
    · have hcast' : (-256 : ℚ) < δ ∧ (δ : ℚ) < 0 :=
        ⟨by exact_mod_cast hmore, by exact_mod_cast hneg⟩
      have hnearest : nearestInt ((z : ℚ) + δ / 2 ^ 9) = z := by
        apply nearestInt_eq_of_abs_lt
        rw [abs_lt]
        constructor <;> linarith [hcast'.1, hcast'.2]
      omega
    · apply le_nearestInt
      have hfraction : (0 : ℚ) ≤ δ / 2 ^ 9 := div_nonneg (by exact_mod_cast hnonneg) (by norm_num)
      linarith

/-- `n` in units of its last place. -/
theorem exists_units {n : ℕ} (hpos : 0 < n) (hn : n < 2 ^ 31) :
    ∃ t, 0 < t ∧ 2 ^ 52 ≤ n * 2 ^ t ∧ n * 2 ^ t + 1 < 2 ^ 53 ∧
      (LosesMillisecond n ↔ 2 ^ 52 * 1000 ≤ n * 2 ^ t * 512 ∧ 256 < n * 2 ^ t * 512 % 1000 ∧
        n * 2 ^ t * 512 % 1000 < 500) := by
  have hlow : 2 ^ Nat.log 2 n ≤ n := Nat.pow_log_le_self 2 hpos.ne'
  have hhigh : n + 1 ≤ 2 ^ (Nat.log 2 n + 1) := Nat.lt_pow_succ_log_self one_lt_two n
  have hlog : Nat.log 2 n < 31 := Nat.log_lt_of_lt_pow hpos.ne' hn
  unfold LosesMillisecond
  generalize Nat.log 2 n = k at hlow hhigh hlog ⊢
  obtain ⟨t, ht⟩ : ∃ t, k + t = 52 := ⟨52 - k, by omega⟩
  have hpow : 2 ^ k * 2 ^ t = 2 ^ 52 := by rw [← pow_add, ht]
  have htwo : 2 ≤ 2 ^ t := Nat.le_pow (by omega)
  refine ⟨t, by omega, hpow ▸ Nat.mul_le_mul_right _ hlow, ?_, ?_⟩
  · have hle := Nat.mul_le_mul_right (2 ^ t) hhigh
    rw [pow_succ, Nat.mul_right_comm, hpow, Nat.add_mul, Nat.one_mul] at hle
    omega
  · have hshift : n * 2 ^ (61 - k) = n * 2 ^ t * 512 := by
      rw [show 61 - k = t + 9 by omega, pow_add, ← Nat.mul_assoc]
      norm_num
    have hlower : 1000 * 2 ^ k ≤ 512 * n ↔ 2 ^ 52 * 1000 ≤ n * 2 ^ t * 512 := by
      rw [← Nat.mul_le_mul_right_iff (Nat.two_pow_pos t), Nat.mul_assoc, hpow,
        Nat.mul_comm 512, Nat.mul_right_comm, Nat.mul_comm 1000]
    rw [hshift, hlower]

/-- In the lower part of the quotient's binary order a millisecond can be lost. -/
theorem truncate_milliseconds_lower {n t : ℕ} (hpos : 0 < n) (ht : 0 < t)
    (hhigh : n * 2 ^ t + 1 < 2 ^ 53) (hlower : 2 ^ 52 * 1000 ≤ n * 2 ^ t * 512) :
    truncate (toDouble (toDouble (n / 1000) * 1000)) =
      if 256 < n * 2 ^ t * 512 % 1000 ∧ n * 2 ^ t * 512 % 1000 < 500 then (n : ℤ) - 1 else n := by
  have hshift : n * 2 ^ (t + 9) = n * 2 ^ t * 512 := by
    rw [pow_add, ← Nat.mul_assoc]
    norm_num
  obtain ⟨q, δ, hq, hδlow, hδhigh, hproduct⟩ :=
    exists_toDouble_div (n := n) (s := t + 9) (by omega) (by omega) (by omega)
  rw [hshift] at hq
  have heven : Even ((n * 2 ^ t : ℕ) : ℤ) := by
    rw [Int.even_coe_nat]
    exact (Nat.even_pow.mpr ⟨even_two, ht.ne'⟩).mul_left n
  obtain ⟨hbelow, habove, hless⟩ := nearestInt_add_div heven (δ := δ) (by omega) (by omega)
  have hsmall := abs_div_pow_lt (j := 9) (abs_lt.mpr ⟨by omega, by omega⟩ : |δ| < 2 ^ 9)
  rw [hproduct, toDouble_add (.inl (by omega)) hhigh hsmall, truncate_div_pow hpos ht hbelow habove]
  refine if_congr (hless.trans ?_) rfl rfl
  have hquotient : q = (n * 2 ^ t * 512 / 1000 : ℕ) ∨ q = (n * 2 ^ t * 512 / 1000 : ℕ) + 1 := by
    omega
  rcases hquotient with rfl | rfl <;> omega

/-- In the upper part none is. -/
theorem truncate_milliseconds_upper {n t : ℕ} (hpos : 0 < n) (ht : 0 < t)
    (hlow : 2 ^ 52 ≤ n * 2 ^ t) (hhigh : n * 2 ^ t + 1 < 2 ^ 53)
    (hupper : n * 2 ^ t * 512 < 2 ^ 52 * 1000) :
    truncate (toDouble (toDouble (n / 1000) * 1000)) = n := by
  have hshift : n * 2 ^ (t + 10) = n * 2 ^ t * 1024 := by
    rw [pow_add, ← Nat.mul_assoc]
    norm_num
  obtain ⟨q, δ, hq, hδlow, hδhigh, hproduct⟩ :=
    exists_toDouble_div (n := n) (s := t + 10) (by omega) (by omega) (by omega)
  rw [hshift] at hq
  have hnearest : nearestInt (((n * 2 ^ t : ℕ) : ℤ) + δ / 2 ^ 10) = (n * 2 ^ t : ℕ) := by
    apply nearestInt_eq_of_abs_lt
    have hcast : (-500 : ℚ) < δ ∧ (δ : ℚ) < 500 :=
      ⟨by exact_mod_cast hδlow, by exact_mod_cast hδhigh⟩
    rw [abs_lt]
    constructor <;> linarith [hcast.1, hcast.2]
  -- a power of two is not rounded down
  have hside : 2 ^ 52 < n * 2 ^ t ∨ (2 ^ 52 = n * 2 ^ t ∧ 0 ≤ δ) := by omega
  have hsmall := abs_div_pow_lt (j := 10) (abs_lt.mpr ⟨by omega, by omega⟩ : |δ| < 2 ^ 10)
  rw [hproduct, toDouble_add hside hhigh hsmall, hnearest,
    truncate_div_pow hpos ht (by omega) (by omega), if_neg (lt_irrefl _)]

/-- **Milliseconds in `double`.** -/
theorem truncate_milliseconds {n : ℕ} (hn : n < 2 ^ 31) :
    truncate (toDouble (toDouble (n / 1000) * 1000)) = keptMilliseconds n := by
  rcases Nat.eq_zero_or_pos n with rfl | hpos
  · simp [keptMilliseconds, truncate]
  have hcast : (keptMilliseconds n : ℤ) = if LosesMillisecond n then (n : ℤ) - 1 else n := by
    unfold keptMilliseconds
    split <;> omega
  obtain ⟨t, ht, hlow, hhigh, hloses⟩ := exists_units hpos hn
  rw [hcast]
  by_cases hlower : 2 ^ 52 * 1000 ≤ n * 2 ^ t * 512
  · rw [truncate_milliseconds_lower hpos ht hhigh hlower]
    exact if_congr ⟨fun hrest => hloses.mpr ⟨hlower, hrest⟩, fun h => (hloses.mp h).2⟩ rfl rfl
  · rw [truncate_milliseconds_upper hpos ht hlow hhigh (not_le.mp hlower),
      if_neg fun h => hlower (hloses.mp h).1]

end XbeeAssignment.Timer
