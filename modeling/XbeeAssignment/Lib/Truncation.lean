import Mathlib.Algebra.Order.Floor.Ring

/-!
# Conversion to an integer type

A number is converted to an integer type by leaving its fraction away, provided
that what is left is a value of the type.  What the conversion gives otherwise is
not said: `Conversion` is any function that does so where it has to.  A statement
about every `Conversion` is one about what can be relied on, and
`Conversion.withDefault` is an instance for every choice of the rest.
-/

namespace Truncation

variable {α : Type*} [Ring α] [LinearOrder α] [FloorRing α]

/-- The number without its fraction. -/
def truncate (x : α) : ℤ :=
  if 0 ≤ x then ⌊x⌋ else ⌈x⌉

theorem truncate_of_nonneg {x : α} (hx : 0 ≤ x) : truncate x = ⌊x⌋ := by
  rw [truncate, if_pos hx]

theorem truncate_nonneg {x : α} (hx : 0 ≤ x) : 0 ≤ truncate x := by
  rw [truncate_of_nonneg hx]
  exact Int.floor_nonneg.mpr hx

theorem truncate_nonpos [IsStrictOrderedRing α] {x : α} (hx : x ≤ 0) : truncate x ≤ 0 := by
  unfold truncate
  split
  · rename_i hnonneg
    rw [le_antisymm hx hnonneg, Int.floor_zero]
  · exact Int.ceil_le.mpr (by rwa [Int.cast_zero])

/-- The values of a type are those from `low` to `high`. -/
def Fits (low high : ℤ) (x : α) : Prop :=
  low ≤ truncate x ∧ truncate x ≤ high

instance (low high : ℤ) (x : α) : Decidable (Fits low high x) :=
  inferInstanceAs (Decidable (_ ∧ _))

/-- A conversion to `τ`, whose elements have a value. -/
structure Conversion (α : Type*) [Ring α] [LinearOrder α] [FloorRing α] {τ : Type*}
    (value : τ → ℤ) (low high : ℤ) where
  convert : α → τ
  value_convert : ∀ x, Fits low high x → value (convert x) = truncate x

namespace Conversion

variable {τ : Type*} {value : τ → ℤ} {low high : ℤ}

/-- The conversion that gives `other` where it need not give anything. -/
def withDefault (ofInt : ℤ → τ) (hvalue : ∀ n, low ≤ n → n ≤ high → value (ofInt n) = n)
    (other : τ) : Conversion α value low high where
  convert x := if Fits low high x then ofInt (truncate x) else other
  value_convert x hfits := by
    rw [if_pos hfits]
    exact hvalue _ hfits.1 hfits.2

theorem convert_withDefault_of_not_fits {ofInt : ℤ → τ}
    {hvalue : ∀ n, low ≤ n → n ≤ high → value (ofInt n) = n} {other : τ} {x : α}
    (hfits : ¬ Fits low high x) :
    (withDefault (α := α) ofInt hvalue other).convert x = other :=
  if_neg hfits

end Conversion

end Truncation
