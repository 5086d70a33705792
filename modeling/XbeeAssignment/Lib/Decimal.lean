import Mathlib.Data.Nat.Digits.Lemmas
import Mathlib.Tactic.Common

/-!
# Numbers in decimal

A number is printed with its most significant digit first, and several numbers with a
separator between them.  Such a text is cut at the separators and read back
(`values_joined`), so that it tells the numbers it was printed from.
-/

namespace Decimal

/-- The character of a digit. -/
def digit (d : ℕ) : UInt8 := UInt8.ofNat (48 + d)

/-- `%d` of a number that is not negative. -/
def decimal (n : ℕ) : List UInt8 :=
  if n = 0 then [digit 0] else (Nat.digits 10 n).reverse.map digit

/-- The number a text of digits stands for. -/
def value (text : List UInt8) : ℕ :=
  Nat.ofDigits 10 (text.reverse.map fun char => char.toNat - 48)

/-- Numbers with a separator between them. -/
def joined (separator : UInt8) (ns : List ℕ) : List UInt8 :=
  [separator].intercalate (ns.map decimal)

/-- The numbers between the separators. -/
def values (separator : UInt8) (text : List UInt8) : List ℕ :=
  (text.splitOn separator).map value

theorem toNat_digit {d : ℕ} (hd : d < 10) : (digit d).toNat = 48 + d := by
  rw [digit, UInt8.toNat_ofNat']
  omega

theorem exists_of_mem_decimal {n : ℕ} {char : UInt8} (hchar : char ∈ decimal n) :
    ∃ d < 10, char = digit d := by
  unfold decimal at hchar
  split at hchar
  · exact ⟨0, by omega, List.mem_singleton.mp hchar⟩
  · obtain ⟨d, hd, rfl⟩ := List.mem_map.mp hchar
    exact ⟨d, Nat.digits_lt_base (by omega) (List.mem_reverse.mp hd), rfl⟩

/-- The characters of a text of numbers are digits and separators. -/
theorem mem_joined {separator char : UInt8} {ns : List ℕ} (hchar : char ∈ joined separator ns) :
    char = separator ∨ ∃ d < 10, char = digit d := by
  induction ns with
  | nil => cases hchar
  | cons n ns ih =>
      cases ns with
      | nil =>
          rw [joined, List.map_singleton, List.intercalate_singleton] at hchar
          exact .inr (exists_of_mem_decimal hchar)
      | cons n' ns =>
          rw [joined, List.map_cons, List.map_cons, List.intercalate_cons_cons, ← List.map_cons,
            ← joined] at hchar
          rcases List.mem_append.mp hchar with hfirst | hrest
          · rcases List.mem_append.mp hfirst with hdigit | hsep
            · exact .inr (exists_of_mem_decimal hdigit)
            · exact .inl (List.mem_singleton.mp hsep)
          · exact ih hrest

theorem length_decimal_le {n k : ℕ} (hk : 0 < k) (hn : n < 10 ^ k) : (decimal n).length ≤ k := by
  unfold decimal
  split
  · exact hk
  · rw [List.length_map, List.length_reverse]
    exact (Nat.digits_length_le_iff (by omega) n).mpr hn

@[simp] theorem value_decimal (n : ℕ) : value (decimal n) = n := by
  unfold decimal
  split
  · next hzero => rw [hzero]; rfl
  · have hdigits : ∀ d ∈ Nat.digits 10 n,
        ((fun char : UInt8 => char.toNat - 48) ∘ digit) d = d := by
      intro d hd
      have hlt := Nat.digits_lt_base (by omega) hd
      rw [Function.comp_apply, toNat_digit hlt, Nat.add_sub_cancel_left]
    rw [value, List.map_reverse, List.map_map, List.map_reverse, List.reverse_reverse,
      List.map_congr_left hdigits, List.map_id', Nat.ofDigits_digits]

/-- A text of numbers is read back. -/
theorem values_joined {separator : UInt8} (hsep : ∀ d < 10, separator ≠ digit d) {ns : List ℕ}
    (hne : ns ≠ []) : values separator (joined separator ns) = ns := by
  have hcut : ∀ text ∈ ns.map decimal, separator ∉ text := by
    intro text htext hmem
    obtain ⟨n, -, rfl⟩ := List.mem_map.mp htext
    obtain ⟨d, hd, heq⟩ := exists_of_mem_decimal hmem
    exact hsep d hd heq
  rw [values, joined, List.splitOn_intercalate separator hcut (by simpa using hne), List.map_map]
  exact (List.map_congr_left fun n _ => value_decimal n).trans (List.map_id _)

end Decimal
