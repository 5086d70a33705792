import Mathlib.Algebra.Order.Ring.Nat
import Mathlib.Data.List.Basic

/-!
# Mixed-radix numbers

A number is written in a list of periods, the longest first: how many of the
first period there are in it, how many of the second in what is left, and so on;
the last digit is what the shortest period leaves.  The digits make up the number
whatever the periods are (`value_digits`), and what follows a digit is less than
its period (`bounded_digits`).

Periods the number does not reach have the digit `0`, so that the digits do not
say what these periods were (`digits_append`).
-/

namespace MixedRadix

/-- How many of each period there are in `n`, and what is left. -/
def digits : List ℕ → ℕ → List ℕ
  | [], n => [n]
  | period :: periods, n => n / period :: digits periods (n % period)

/-- The number that digits make up. -/
def value : List ℕ → List ℕ → ℕ
  | period :: periods, digit :: rest => digit * period + value periods rest
  | [], [digit] => digit
  | _, _ => 0

/-- What follows each digit is less than its period. -/
def Bounded : List ℕ → List ℕ → Prop
  | period :: periods, _ :: rest => value periods rest < period ∧ Bounded periods rest
  | [], [_] => True
  | _, _ => False

/-- The digits make up the number. -/
@[simp] theorem value_digits (periods : List ℕ) (n : ℕ) : value periods (digits periods n) = n := by
  induction periods generalizing n with
  | nil => rfl
  | cons period periods ih =>
      rw [digits, value, ih]
      exact Nat.div_add_mod' n period

theorem bounded_digits {periods : List ℕ} (hpos : ∀ period ∈ periods, 0 < period) (n : ℕ) :
    Bounded periods (digits periods n) := by
  induction periods generalizing n with
  | nil => trivial
  | cons period periods ih =>
      rw [digits, Bounded, value_digits]
      refine ⟨Nat.mod_lt n (hpos period (List.mem_cons_self ..)), ?_⟩
      exact ih (fun period hperiod => hpos period (List.mem_cons_of_mem _ hperiod)) _

/-- No digit is larger than the number. -/
theorem le_of_mem_digits {periods : List ℕ} {n digit : ℕ} (hdigit : digit ∈ digits periods n) :
    digit ≤ n := by
  induction periods generalizing n with
  | nil => exact (List.mem_singleton.mp hdigit).le
  | cons period periods ih =>
      rcases List.mem_cons.mp hdigit with rfl | hrest
      · exact Nat.div_le_self n period
      · exact (ih hrest).trans (Nat.mod_le n period)

/-- Periods that the number does not reach. -/
theorem digits_append {long : List ℕ} {n : ℕ} (hlong : ∀ period ∈ long, n < period)
    (periods : List ℕ) :
    digits (long ++ periods) n = List.replicate long.length 0 ++ digits periods n := by
  induction long with
  | nil => rfl
  | cons period long ih =>
      have hlt : n < period := hlong period (List.mem_cons_self ..)
      have hrest := ih fun period hperiod => hlong period (List.mem_cons_of_mem _ hperiod)
      rw [List.cons_append, digits, Nat.div_eq_of_lt hlt, Nat.mod_eq_of_lt hlt, hrest]
      rfl

end MixedRadix
