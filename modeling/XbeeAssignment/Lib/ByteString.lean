import Mathlib.Data.Nat.Digits.Lemmas
import Mathlib.Tactic.Ring

/-!
# Byte strings: additive checksums and big-endian numbers

The checksum of a byte string is taken over `byteSum`, the plain sum of its
bytes.  A program adds the bytes up in a 32-bit register instead, and may widen
each byte with or without its sign; `setWidth_accumulate` says that the low byte
of the register is the sum modulo `256` for every way of widening that keeps
the low byte.

Numbers are read with Mathlib's `Nat.ofDigits`, most significant byte first.
-/

namespace ByteString

/-- The sum of the bytes, as a natural number. -/
def byteSum (bytes : List UInt8) : ℕ :=
  (bytes.map UInt8.toNat).sum

@[simp] theorem byteSum_nil : byteSum [] = 0 := rfl

@[simp] theorem byteSum_cons (byte : UInt8) (bytes : List UInt8) :
    byteSum (byte :: bytes) = byte.toNat + byteSum bytes := rfl

@[simp] theorem byteSum_append (first second : List UInt8) :
    byteSum (first ++ second) = byteSum first + byteSum second := by
  simp [byteSum]

@[simp] theorem byteSum_replicate_zero (n : ℕ) : byteSum (List.replicate n 0) = 0 := by
  simp [byteSum]

/-- Replacing a byte exchanges it in the sum. -/
theorem byteSum_set {bytes : List UInt8} {i : ℕ} (hi : i < bytes.length) (byte : UInt8) :
    byteSum (bytes.set i byte) + bytes[i].toNat = byteSum bytes + byte.toNat := by
  induction bytes generalizing i with
  | nil => exact absurd hi (Nat.not_lt_zero i)
  | cons first bytes ih =>
      cases i with
      | zero =>
          simp only [List.set_cons_zero, byteSum_cons, List.getElem_cons_zero]
          omega
      | succ i =>
          have hrest := ih (Nat.lt_of_succ_lt_succ hi)
          simp only [List.set_cons_succ, byteSum_cons, List.getElem_cons_succ]
          omega

/-- Replacing a byte by another one changes the sum modulo `256`. -/
theorem byteSum_set_mod_ne {bytes : List UInt8} {i : ℕ} (hi : i < bytes.length) {byte : UInt8}
    (hbyte : byte ≠ bytes[i]) : byteSum (bytes.set i byte) % 256 ≠ byteSum bytes % 256 := by
  have hset := byteSum_set hi byte
  have hne : byte.toNat ≠ bytes[i].toNat := fun heq => hbyte (UInt8.toNat_inj.mp heq)
  have hlt := byte.toNat_lt
  have hlt' := bytes[i].toNat_lt
  omega

/-! ## Adding up in a register -/

/-- The register after adding the bytes one by one, each widened by `widen`. -/
def accumulate (widen : UInt8 → BitVec 32) (bytes : List UInt8) : BitVec 32 :=
  bytes.foldl (fun sum byte => sum + widen byte) 0

theorem setWidth_foldl {widen : UInt8 → BitVec 32}
    (hwiden : ∀ byte, (widen byte).setWidth 8 = byte.toBitVec) (bytes : List UInt8)
    (sum : BitVec 32) :
    (bytes.foldl (fun sum byte => sum + widen byte) sum).setWidth 8 =
      sum.setWidth 8 + BitVec.ofNat 8 (byteSum bytes) := by
  induction bytes generalizing sum with
  | nil => simp
  | cons byte bytes ih =>
      have hbyte : byte.toBitVec = BitVec.ofNat 8 byte.toNat := by
        rw [← UInt8.toNat_toBitVec, BitVec.ofNat_toNat, BitVec.setWidth_eq]
      rw [List.foldl_cons, ih, BitVec.setWidth_add _ _ (by omega), hwiden, byteSum_cons,
        BitVec.ofNat_add, BitVec.add_assoc, hbyte]

/-- The low byte of the register is the sum modulo `256`. -/
theorem setWidth_accumulate {widen : UInt8 → BitVec 32}
    (hwiden : ∀ byte, (widen byte).setWidth 8 = byte.toBitVec) (bytes : List UInt8) :
    (accumulate widen bytes).setWidth 8 = BitVec.ofNat 8 (byteSum bytes) := by
  rw [accumulate, setWidth_foldl hwiden]
  simp

/-- What must be added to the bytes for the sum to be `0xFF` modulo `256`. -/
theorem byteSum_append_complement (bytes : List UInt8) {last : UInt8}
    (hlast : last = 0xFF - UInt8.ofNat (byteSum bytes)) :
    byteSum (bytes ++ [last]) % 256 = 255 := by
  have hvalue : last.toNat = 255 - byteSum bytes % 256 := by
    rw [hlast, UInt8.toNat_sub_of_le _ _ (UInt8.le_iff_toNat_le.mpr ?_)]
    · simp
    · have := (UInt8.ofNat (byteSum bytes)).toNat_lt
      simp only [UInt8.reduceToNat]
      omega
  simp only [byteSum_append, byteSum_cons, byteSum_nil, hvalue]
  omega

/-! ## Numbers -/

/-- The number whose digits are the bytes, most significant first. -/
def beValue (bytes : List UInt8) : ℕ :=
  Nat.ofDigits 256 (bytes.reverse.map UInt8.toNat)

theorem beValue_pair (high low : UInt8) : beValue [high, low] = 256 * high.toNat + low.toNat := by
  simp [beValue, Nat.ofDigits]
  ring

/-- Two bytes joined in a 16-bit register. -/
theorem toNat_joinBytes (high low : UInt8) :
    (low.toBitVec.setWidth 16 ||| high.toBitVec.setWidth 16 <<< 8).toNat = beValue [high, low] := by
  have hhigh := high.toNat_lt
  have hlow := low.toNat_lt
  have hshift : high.toNat <<< 8 = 256 * high.toNat := by
    rw [Nat.shiftLeft_eq]
    omega
  rw [BitVec.toNat_or, BitVec.toNat_shiftLeft, BitVec.toNat_setWidth, BitVec.toNat_setWidth,
    UInt8.toNat_toBitVec, UInt8.toNat_toBitVec, Nat.mod_eq_of_lt (by omega : high.toNat < 2 ^ 16),
    Nat.mod_eq_of_lt (by omega : low.toNat < 2 ^ 16), Nat.mod_eq_of_lt (by omega), Nat.or_comm,
    ← Nat.shiftLeft_add_eq_or_of_lt hlow, hshift, beValue_pair]

theorem beValue_lt (bytes : List UInt8) : beValue bytes < 256 ^ bytes.length := by
  have hlt := Nat.ofDigits_lt_base_pow_length (b := 256) (l := bytes.reverse.map UInt8.toNat)
    (by norm_num) (by
      intro digit hdigit
      obtain ⟨byte, -, rfl⟩ := List.mem_map.mp hdigit
      exact byte.toNat_lt)
  simpa [beValue] using hlt

/-- Byte strings of one length with the same value are the same. -/
theorem eq_of_beValue_eq {first second : List UInt8} (hlength : first.length = second.length)
    (hvalue : beValue first = beValue second) : first = second := by
  have hbytes : ∀ bytes : List UInt8, ∀ digit ∈ bytes.reverse.map UInt8.toNat, digit < 256 := by
    intro bytes digit hdigit
    obtain ⟨byte, -, rfl⟩ := List.mem_map.mp hdigit
    exact byte.toNat_lt
  have hdigits : first.reverse.map UInt8.toNat = second.reverse.map UInt8.toNat :=
    Nat.ofDigits_inj_of_len_eq (by norm_num) (by simp [hlength]) (hbytes first) (hbytes second)
      hvalue
  have hreverse : first.reverse = second.reverse :=
    List.map_injective_iff.mpr (fun _ _ => UInt8.toNat_inj.mp) hdigits
  exact List.reverse_inj.mp hreverse

/-- The upper byte of a 16-bit number. -/
def highByte (n : ℕ) : UInt8 :=
  UInt8.ofNat (n >>> 8)

/-- The lower byte of a 16-bit number. -/
def lowByte (n : ℕ) : UInt8 :=
  UInt8.ofNat n

/-- Two bytes hold a number modulo `2 ^ 16`. -/
theorem beValue_highByte_lowByte (n : ℕ) : beValue [highByte n, lowByte n] = n % 65536 := by
  rw [beValue_pair]
  simp only [highByte, lowByte, UInt8.toNat_ofNat', Nat.shiftRight_eq_div_pow]
  omega

end ByteString
