import Mathlib.Data.Int.Log
import Mathlib.Data.Rat.Floor
import Mathlib.Algebra.Order.Field.Power
import Mathlib.Tactic.Linarith
import Mathlib.Tactic.Positivity
import Mathlib.Tactic.Ring

/-!
# Rounding to a binary floating-point format

The numbers of a format of `p` binary digits are the integers of that many digits
times a power of two, and an operation of the format returns the number nearest to
the exact result, of two that are as near the one whose last digit is even
(`nearest`).

The exponents are not bounded here.  In a format where they are, `nearest` is the
rounding of what neither overflows nor falls among the subnormal numbers.

There are two ways to reason about it: the relative error (`abs_nearest_sub_le`), and
the rounding to an integer of the number counted in units of its last place, where it
is known between which powers of two the number lies (`nearest_eq_of_binade`).
-/

namespace FloatRounding

/-! ## The nearest integer -/

/-- The nearest integer, of two that are as near the even one. -/
def nearestInt (x : ℚ) : ℤ :=
  if Int.fract x < 1 / 2 ∨ (Int.fract x = 1 / 2 ∧ Even ⌊x⌋) then ⌊x⌋ else ⌊x⌋ + 1

variable {x : ℚ} {n : ℤ}

theorem nearestInt_cases (x : ℚ) :
    (nearestInt x = ⌊x⌋ ∧ Int.fract x ≤ 1 / 2) ∨
      (nearestInt x = ⌊x⌋ + 1 ∧ 1 / 2 ≤ Int.fract x) := by
  unfold nearestInt
  split
  · rename_i hlow
    exact .inl ⟨rfl, hlow.elim le_of_lt fun htie => htie.1.le⟩
  · rename_i hhigh
    exact .inr ⟨rfl, not_lt.mp fun hlt => hhigh (.inl hlt)⟩

theorem abs_nearestInt_sub_le (x : ℚ) : |(nearestInt x : ℚ) - x| ≤ 1 / 2 := by
  have hsum := Int.floor_add_fract x
  have hnonneg := Int.fract_nonneg x
  have hlt := Int.fract_lt_one x
  rw [abs_le]
  rcases nearestInt_cases x with ⟨heq, hle⟩ | ⟨heq, hle⟩
  · rw [heq]
    constructor <;> linarith
  · rw [heq]
    push_cast
    constructor <;> linarith

/-- Rounding does not step over an integer. -/
theorem le_nearestInt (hle : (n : ℚ) ≤ x) : n ≤ nearestInt x := by
  have hfloor : n ≤ ⌊x⌋ := Int.le_floor.mpr hle
  rcases nearestInt_cases x with ⟨heq, -⟩ | ⟨heq, -⟩ <;> omega

theorem nearestInt_le (hle : x ≤ n) : nearestInt x ≤ n := by
  have hfloor : ⌊x⌋ ≤ n := by
    have hle' : (⌊x⌋ : ℚ) ≤ n := (Int.floor_le x).trans hle
    exact_mod_cast hle'
  rcases nearestInt_cases x with ⟨heq, -⟩ | ⟨heq, hhalf⟩
  · omega
  · have hne : ⌊x⌋ ≠ n := by
      intro hne
      have hsum := Int.floor_add_fract x
      rw [hne] at hsum
      linarith
    omega

theorem nearestInt_intCast (n : ℤ) : nearestInt n = n :=
  le_antisymm (nearestInt_le le_rfl) (le_nearestInt le_rfl)

theorem nearestInt_eq_of_abs_lt (hlt : |x - n| < 1 / 2) : nearestInt x = n := by
  have hnear := abs_lt.mp hlt
  have herror := abs_le.mp (abs_nearestInt_sub_le x)
  have hlow : ((n - 1 : ℤ) : ℚ) < nearestInt x := by
    push_cast
    linarith
  have hhigh : (nearestInt x : ℚ) < ((n + 1 : ℤ) : ℚ) := by
    push_cast
    linarith
  have hlow' : n - 1 < nearestInt x := by exact_mod_cast hlow
  have hhigh' : nearestInt x < n + 1 := by exact_mod_cast hhigh
  omega

/-- A number half below an even integer is rounded up to it. -/
theorem nearestInt_eq_of_half (heven : Even n) (hhalf : x = n - 1 / 2) : nearestInt x = n := by
  have hfloor : ⌊x⌋ = n - 1 := by
    rw [hhalf, Int.floor_eq_iff]
    push_cast
    constructor <;> linarith
  have hfract : Int.fract x = 1 / 2 := by
    have hsum := Int.floor_add_fract x
    rw [hfloor] at hsum
    push_cast at hsum
    linarith
  have hodd : ¬ Even ⌊x⌋ := by
    rw [hfloor, Int.not_even_iff_odd]
    exact heven.sub_odd odd_one
  rw [nearestInt, if_neg (by simp [hfract, hodd]), hfloor]
  omega

/-! ## The nearest number -/

/-- The unit in the last of `p` binary digits. -/
def ulp (p : ℕ) (x : ℚ) : ℚ :=
  2 ^ (Int.log 2 |x| + 1 - p)

/-- The nearest number of `p` binary digits, of two that are as near the even one. -/
def nearest (p : ℕ) (x : ℚ) : ℚ :=
  nearestInt (x / ulp p x) * ulp p x

variable {p : ℕ}

theorem ulp_pos (p : ℕ) (x : ℚ) : 0 < ulp p x := zpow_pos (by norm_num) _

/-- A number has no more than `p` digits before its last place. -/
theorem ulp_mul_le (hx : x ≠ 0) : ulp p x * 2 ^ p ≤ 2 * |x| := by
  have htwo : (2 : ℚ) ≠ 0 := by norm_num
  have hlog : (2 : ℚ) ^ Int.log 2 |x| ≤ |x| := by
    exact_mod_cast Int.zpow_log_le_self one_lt_two (abs_pos.mpr hx)
  calc ulp p x * 2 ^ p = 2 ^ (Int.log 2 |x| + 1 - p + p) := by
        rw [ulp, zpow_add₀ htwo _ (p : ℤ), zpow_natCast]
    _ = 2 ^ Int.log 2 |x| * 2 := by rw [sub_add_cancel, zpow_add_one₀ htwo]
    _ ≤ 2 * |x| := by linarith

@[simp] theorem nearest_zero (p : ℕ) : nearest p 0 = 0 := by
  have hzero : nearestInt 0 = 0 := nearestInt_intCast 0
  rw [nearest, zero_div, hzero, Int.cast_zero, zero_mul]

/-- The error is half a unit in the last place. -/
theorem abs_nearest_sub_le_ulp (p : ℕ) (x : ℚ) : |nearest p x - x| ≤ ulp p x / 2 := by
  have hpos := ulp_pos p x
  have herror := abs_nearestInt_sub_le (x / ulp p x)
  calc |nearest p x - x| = |(nearestInt (x / ulp p x) - x / ulp p x) * ulp p x| := by
        rw [sub_mul, div_mul_cancel₀ _ hpos.ne', nearest]
    _ = |(nearestInt (x / ulp p x) : ℚ) - x / ulp p x| * ulp p x := by
        rw [abs_mul, abs_of_pos hpos]
    _ ≤ 1 / 2 * ulp p x := mul_le_mul_of_nonneg_right herror hpos.le
    _ = ulp p x / 2 := by ring

/-- **The relative error.** -/
theorem abs_nearest_sub_le (p : ℕ) (x : ℚ) : |nearest p x - x| ≤ |x| / 2 ^ p := by
  rcases eq_or_ne x 0 with rfl | hx
  · simp
  · have hpow : (0 : ℚ) < 2 ^ p := by positivity
    have hulp : ulp p x ≤ 2 * |x| / 2 ^ p := (le_div_iff₀ hpow).mpr (ulp_mul_le hx)
    calc |nearest p x - x| ≤ ulp p x / 2 := abs_nearest_sub_le_ulp p x
      _ ≤ 2 * |x| / 2 ^ p / 2 := by linarith
      _ = |x| / 2 ^ p := by ring

/-- The last place of a number of which it is known between which powers of two it lies. -/
theorem ulp_eq_of_binade {s : ℕ} (hlow : 2 ^ p ≤ 2 * (|x| * 2 ^ s)) (hhigh : |x| * 2 ^ s < 2 ^ p) :
    ulp p x = (2 ^ s)⁻¹ := by
  have htwo : (2 : ℚ) ≠ 0 := by norm_num
  have hpow : (0 : ℚ) < 2 ^ s := by positivity
  have hpos : 0 < |x| := by
    by_contra hnonpos
    rw [le_antisymm (not_lt.mp hnonpos) (abs_nonneg x), zero_mul, mul_zero] at hlow
    exact absurd hlow (not_le.mpr (by positivity))
  have hupper : |x| < ((2 : ℕ) : ℚ) ^ ((p : ℤ) - s) := by
    rw [Nat.cast_ofNat, zpow_sub₀ htwo, zpow_natCast, zpow_natCast, lt_div_iff₀ hpow]
    exact hhigh
  have hlower : ((2 : ℕ) : ℚ) ^ ((p : ℤ) - s - 1) ≤ |x| := by
    rw [Nat.cast_ofNat, zpow_sub_one₀ htwo, zpow_sub₀ htwo, zpow_natCast, zpow_natCast,
      ← div_eq_mul_inv, div_div, div_le_iff₀ (by positivity)]
    linarith
  have hlog : Int.log 2 |x| = (p : ℤ) - s - 1 := by
    have hlt := (Int.lt_zpow_iff_log_lt one_lt_two hpos).mp hupper
    have hle := (Int.zpow_le_iff_le_log one_lt_two hpos).mp hlower
    omega
  rw [ulp, hlog, sub_add_cancel, sub_sub_cancel_left, zpow_neg, zpow_natCast]

/-- **Rounding in units of the last place.** -/
theorem nearest_eq_of_binade {s : ℕ} (hlow : 2 ^ p ≤ 2 * (|x| * 2 ^ s))
    (hhigh : |x| * 2 ^ s < 2 ^ p) : nearest p x = nearestInt (x * 2 ^ s) / 2 ^ s := by
  rw [nearest, ulp_eq_of_binade hlow hhigh, div_inv_eq_mul, div_eq_mul_inv]

/-- Integers of `p` digits are numbers of the format. -/
theorem nearest_natCast {n : ℕ} (hn : n < 2 ^ p) : nearest p n = n := by
  rcases Nat.eq_zero_or_pos n with rfl | hpos
  · rw [Nat.cast_zero, nearest_zero]
  · have hlow : 2 ^ Nat.log 2 n ≤ n := Nat.pow_log_le_self 2 hpos.ne'
    have hhigh : n < 2 ^ (Nat.log 2 n + 1) := Nat.lt_pow_succ_log_self one_lt_two n
    have hlog : Nat.log 2 n < p := Nat.log_lt_of_lt_pow hpos.ne' hn
    obtain ⟨s, hs⟩ : ∃ s, Nat.log 2 n + 1 + s = p := ⟨p - Nat.log 2 n - 1, by omega⟩
    have hlow' : 2 ^ p ≤ 2 * (n * 2 ^ s) := by
      calc 2 ^ p = 2 * (2 ^ Nat.log 2 n * 2 ^ s) := by rw [← hs, pow_add, pow_succ]; ring
        _ ≤ 2 * (n * 2 ^ s) := by gcongr
    have hhigh' : n * 2 ^ s < 2 ^ p := by
      calc n * 2 ^ s < 2 ^ (Nat.log 2 n + 1) * 2 ^ s := by gcongr
        _ = 2 ^ p := by rw [← pow_add, hs]
    have habs : |(n : ℚ)| = n := Nat.abs_cast n
    have hscaled : (n : ℚ) * 2 ^ s = ((n * 2 ^ s : ℕ) : ℤ) := by push_cast; ring
    rw [nearest_eq_of_binade (s := s) (by rw [habs]; exact_mod_cast hlow')
      (by rw [habs]; exact_mod_cast hhigh'), hscaled, nearestInt_intCast, ← hscaled,
      mul_div_cancel_right₀ _ (by positivity)]

/-! ## Numbers that are not negative -/

theorem mul_le_nearest (hx : 0 ≤ x) : x * (1 - 1 / 2 ^ p) ≤ nearest p x := by
  have herror := abs_le.mp (abs_nearest_sub_le p x)
  rw [abs_of_nonneg hx] at herror
  rw [mul_sub, mul_one, mul_one_div]
  linarith [herror.1]

theorem nearest_le_mul (hx : 0 ≤ x) : nearest p x ≤ x * (1 + 1 / 2 ^ p) := by
  have herror := abs_le.mp (abs_nearest_sub_le p x)
  rw [abs_of_nonneg hx] at herror
  rw [mul_add, mul_one, mul_one_div]
  linarith [herror.2]

theorem nearest_nonneg (p : ℕ) (hx : 0 ≤ x) : 0 ≤ nearest p x := by
  have hle : 1 / 2 ^ p ≤ (1 : ℚ) := div_le_self zero_le_one (one_le_pow₀ one_le_two)
  exact (mul_nonneg hx (sub_nonneg.mpr hle)).trans (mul_le_nearest hx)

theorem nearest_pos (hp : 0 < p) (hx : 0 < x) : 0 < nearest p x := by
  have hlt : 1 / 2 ^ p < (1 : ℚ) := div_lt_self one_pos (one_lt_pow₀ one_lt_two hp.ne')
  exact (mul_pos hx (sub_pos.mpr hlt)).trans_le (mul_le_nearest hx.le)

theorem nearest_nonpos (p : ℕ) (hx : x ≤ 0) : nearest p x ≤ 0 := by
  have herror := abs_le.mp (abs_nearest_sub_le p x)
  have hle : |x| / 2 ^ p ≤ -x := by
    rw [abs_of_nonpos hx]
    exact div_le_self (neg_nonneg.mpr hx) (one_le_pow₀ one_le_two)
  linarith [herror.2]

end FloatRounding
