import Mathlib.Tactic.Common
import Mathlib.Data.List.Basic

/-!
# Memory as a function of the address

A buffer is a function from offsets to cells.  `slice` reads a range of it and
`blit` overwrites one; copying from one buffer to another is
`blit target off (slice source off' len)`, and so is moving within one buffer,
where the source range is read before the target range is written and the two
may overlap.

The capacity of a buffer is not part of the function.  A program that must stay
inside its buffer says so where it reads and writes.
-/

namespace Memory

variable {α : Type*}

/-- The `len` cells from offset `off` on. -/
def slice (memory : ℕ → α) (off len : ℕ) : List α :=
  (List.range len).map fun k => memory (off + k)

/-- The memory with `cells` written from offset `off` on. -/
def blit (memory : ℕ → α) (off : ℕ) (cells : List α) (k : ℕ) : α :=
  if h : off ≤ k ∧ k - off < cells.length then cells[k - off] else memory k

@[simp] theorem length_slice (memory : ℕ → α) (off len : ℕ) :
    (slice memory off len).length = len := by
  simp [slice]

@[simp] theorem slice_zero (memory : ℕ → α) (off : ℕ) : slice memory off 0 = [] := rfl

theorem slice_add (memory : ℕ → α) (off first second : ℕ) :
    slice memory off (first + second) =
      slice memory off first ++ slice memory (off + first) second := by
  simp [slice, List.range_add, Nat.add_assoc]

theorem slice_succ (memory : ℕ → α) (off len : ℕ) :
    slice memory off (len + 1) = memory off :: slice memory (off + 1) len := by
  rw [Nat.add_comm len 1, slice_add]
  rfl

/-- Splitting a range in two. -/
theorem slice_split (memory : ℕ → α) (off : ℕ) {first len : ℕ} (hle : first ≤ len) :
    slice memory off len = slice memory off first ++ slice memory (off + first) (len - first) := by
  rw [← slice_add, Nat.add_sub_cancel' hle]

theorem slice_congr {memory memory' : ℕ → α} {off len : ℕ}
    (heq : ∀ k < len, memory (off + k) = memory' (off + k)) :
    slice memory off len = slice memory' off len := by
  apply List.map_congr_left
  intro k hk
  exact heq k (List.mem_range.mp hk)

/-- What was written is read back. -/
@[simp] theorem slice_blit (memory : ℕ → α) (off : ℕ) (cells : List α) :
    slice (blit memory off cells) off cells.length = cells := by
  apply List.ext_getElem
  · simp
  · intro k _ hk
    simp [slice, blit, hk]

theorem slice_blit_of_length (memory : ℕ → α) (off : ℕ) {cells : List α} {len : ℕ}
    (hlen : cells.length = len) : slice (blit memory off cells) off len = cells := by
  rw [← hlen, slice_blit]

/-- What ends before the written range is unchanged. -/
theorem slice_blit_before (memory : ℕ → α) {off off' len : ℕ} (cells : List α)
    (hle : off' + len ≤ off) :
    slice (blit memory off cells) off' len = slice memory off' len := by
  apply slice_congr
  intro k hk
  rw [blit, dif_neg (by omega)]

/-- Appending to the range that ends where the write begins. -/
theorem slice_blit_append (memory : ℕ → α) (off len : ℕ) (cells : List α) :
    slice (blit memory (off + len) cells) off (len + cells.length) =
      slice memory off len ++ cells := by
  calc slice (blit memory (off + len) cells) off (len + cells.length)
      = slice (blit memory (off + len) cells) off len ++
          slice (blit memory (off + len) cells) (off + len) cells.length := slice_add ..
    _ = slice memory off len ++ cells := by
        rw [slice_blit, slice_blit_before _ _ (Nat.le_refl _)]

theorem take_slice (memory : ℕ → α) (off : ℕ) {n len : ℕ} (hle : n ≤ len) :
    (slice memory off len).take n = slice memory off n := by
  rw [slice_split memory off hle, List.take_left' (length_slice ..)]

theorem drop_slice (memory : ℕ → α) (off : ℕ) {n len : ℕ} (hle : n ≤ len) :
    (slice memory off len).drop n = slice memory (off + n) (len - n) := by
  rw [slice_split memory off hle, List.drop_left' (length_slice ..)]

end Memory
