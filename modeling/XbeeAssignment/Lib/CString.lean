import XbeeAssignment.Lib.Memory
import Mathlib.Data.Int.Notation
import Mathlib.Data.List.TakeWhile

/-!
# Strings of C

A string is a list of bytes other than the terminator, which is written behind it
in memory.  A buffer holds the string that ends at its first terminator (`read`):
whatever was in the buffer behind it does not matter (`read_strcpy`).
-/

/-- The bytes of a string, without its terminator. -/
@[ext]
structure CString where
  bytes : List UInt8
  no_terminator : 0 ∉ bytes
deriving DecidableEq

namespace CString

open Memory

/-- `strlen`. -/
def length (s : CString) : ℕ := s.bytes.length

/-- `strcpy`. -/
def strcpy (buffer : ℕ → UInt8) (s : CString) : ℕ → UInt8 :=
  blit buffer 0 (s.bytes ++ [0])

/-- The bytes up to the first terminator. -/
def ofBytes (bytes : List UInt8) : CString :=
  { bytes := bytes.takeWhile (· ≠ 0)
    no_terminator := fun hmem => by simpa using List.mem_takeWhile_imp hmem }

/-- A string literal, one byte a character. -/
def literal (s : String) : CString := ofBytes (s.toList.map fun c => c.toNat.toUInt8)

/-- The string a buffer of so many bytes holds. -/
def read (buffer : ℕ → UInt8) (size : ℕ) : CString := ofBytes (slice buffer 0 size)

/-- The first difference between two strings, the terminator included. -/
def compare : List UInt8 → List UInt8 → ℤ
  | [], [] => 0
  | [], b :: _ => -b.toNat
  | a :: _, [] => a.toNat
  | a :: as, b :: bs => if a = b then compare as bs else a.toNat - b.toNat

/-- `strcmp`. -/
def strcmp (s t : CString) : ℤ := compare s.bytes t.bytes

/-- Two bytes that differ do so as numbers. -/
theorem toNat_ne {a b : UInt8} (hne : a ≠ b) : a.toNat ≠ b.toNat :=
  fun heq => hne (UInt8.toNat_inj.mp heq)

theorem compare_eq_zero_iff {as bs : List UInt8} (has : 0 ∉ as) (hbs : 0 ∉ bs) :
    compare as bs = 0 ↔ as = bs := by
  induction as generalizing bs with
  | nil =>
      cases bs with
      | nil => exact iff_of_true rfl rfl
      | cons b bs =>
          have hne : b ≠ 0 := fun hb => hbs (hb ▸ List.mem_cons_self ..)
          have hb : b.toNat ≠ 0 := toNat_ne hne
          simp [compare, hb]
  | cons a as ih =>
      cases bs with
      | nil =>
          have hne : a ≠ 0 := fun ha => has (ha ▸ List.mem_cons_self ..)
          have ha : a.toNat ≠ 0 := toNat_ne hne
          simp [compare, ha]
      | cons b bs =>
          have hrest := ih (fun hmem => has (List.mem_cons_of_mem _ hmem))
            (fun hmem => hbs (List.mem_cons_of_mem _ hmem))
          rw [compare]
          by_cases hab : a = b
          · rw [if_pos hab, hrest, hab, List.cons.injEq, eq_self, true_and]
          · have hne := toNat_ne hab
            rw [if_neg hab, List.cons.injEq]
            exact iff_of_false (by omega) fun heq => hab heq.1

theorem strcmp_eq_zero_iff (s t : CString) : strcmp s t = 0 ↔ s = t := by
  rw [strcmp, compare_eq_zero_iff s.no_terminator t.no_terminator, CString.ext_iff]

/-- A string that fits into a buffer is read back from it. -/
theorem read_strcpy (buffer : ℕ → UInt8) {s : CString} {size : ℕ} (hfits : s.length < size) :
    read (strcpy buffer s) size = s := by
  have hsize : (s.bytes ++ [0]).length ≤ size := by
    rw [List.length_append]
    exact hfits
  have hslice := slice_split (strcpy buffer s) 0 hsize
  rw [strcpy, slice_blit, List.append_assoc, List.singleton_append] at hslice
  have hbytes : ∀ byte ∈ s.bytes, decide (byte ≠ 0) = true := by
    intro byte hbyte
    exact decide_eq_true fun hzero => s.no_terminator (hzero ▸ hbyte)
  apply CString.ext
  show (slice (strcpy buffer s) 0 size).takeWhile (· ≠ 0) = s.bytes
  rw [strcpy, hslice, List.takeWhile_append_of_pos hbytes]
  simp

end CString
