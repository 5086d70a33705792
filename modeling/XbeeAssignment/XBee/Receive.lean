import XbeeAssignment.Lib.ByteString
import Mathlib.Data.List.GetD

/-!
# `XBeeHandler::receive`

One call reads at most 128 bytes into a zeroed buffer, tests the status byte at
index 17, sums the buffer from index 3 to its end, and then decodes an
`xbee_frame` out of it and hands it to the callback.

* Whether plain `char` is signed differs between the native and the ARM build,
  so it is a parameter, `CharSign`; only the checksum and the length see it.
* The data array has `length - 15` elements, with `length` taken from the buffer
  unchecked.  When that is negative, or the data loop runs past the 128 bytes,
  the C++ is undefined and `receive` is `none`.
* `data_frame.command` is an empty string that is written by index.  Writing by
  index does not change a string's size, so it stays empty.
-/

namespace XbeeAssignment.XBee

open ByteString

/-! ## Data -/

/-- `struct xbee_frame`. -/
structure XBeeFrame where
  length : UInt16
  address : UInt64
  data : List Int8
  status : UInt8
  command : List UInt8
  deriving DecidableEq, Repr

/-- Whether plain `char` is a signed type. -/
inductive CharSign
  | signed
  | unsigned
  deriving DecidableEq, Repr

/-- A `char` converted to `int`. -/
def CharSign.toInt (sign : CharSign) (char : UInt8) : BitVec 32 :=
  match sign with
  | .signed => char.toBitVec.signExtend 32
  | .unsigned => char.toBitVec.setWidth 32

/-- What `read(serial_fd, buf, sizeof buf)` did: failed with `-1`, or stored some bytes. -/
inductive ReadResult
  | error
  | bytes (content : List UInt8) (fits : content.length ≤ 128)

/-- The 128-byte buffer: zeroed, then overwritten with what was read. -/
def rxBuf (content : List UInt8) (fits : content.length ≤ 128) : Vector UInt8 128 :=
  ⟨(content ++ List.replicate (128 - content.length) 0).toArray, by simp; omega⟩

/-- The ways `receive` returns: the three `return false`, and `return true` after
the callback. -/
inductive ReceiveExit
  | readError
  | statusError
  | checksumError
  | delivered (frame : XBeeFrame)
  deriving DecidableEq, Repr

/-- The returned value. -/
def ReceiveExit.returned : ReceiveExit → Bool
  | .delivered _ => true
  | _ => false

/-- The arguments of the callback's invocations. -/
def ReceiveExit.calls : ReceiveExit → List XBeeFrame
  | .delivered frame => [frame]
  | _ => []

/-! ## Decoding the buffer -/

section

variable (sign : CharSign) (buf : Vector UInt8 128)

/-- `data_frame.status`. -/
def statusByte : UInt8 :=
  buf[17]

/-- The `int` `sum` over the buffer from index 3 to its end. -/
def rxSum : BitVec 32 :=
  accumulate sign.toInt (buf.toList.drop 3)

/-- `data_frame.length`: `(uint16_t) (buf[2] | (buf[1] << 8))`. -/
def frameLength : UInt16 :=
  UInt16.ofBitVec
    ((sign.toInt buf[2] |||
      sign.toInt buf[1] <<< 8).setWidth 16)

/-- `address_64`, filled with `buf[4 + size--]` from `size = 8` on. -/
def address64 : List UInt8 :=
  (List.finRange 8).map fun k : Fin 8 => buf[4 + (8 - k.val)]

/-- The number of elements of `data`, as the `int` it is computed in. -/
def dataSize : ℤ :=
  (frameLength sign buf).toNat - 15

/-- The data loop: `buf[18 + size++]` for each element of `data`, as far as `buf` goes. -/
def readData : ℕ → ℕ → Option (List Int8)
  | _, 0 => some []
  | size, elements + 1 => do
      let byte ← buf[18 + size]?
      let rest ← readData (size + 1) elements
      return byte.toInt8 :: rest

/-- The frame handed to the callback; `none` when `data` has a negative size or the data
loop leaves the buffer. -/
def decodeFrame : Option XBeeFrame :=
  if 0 ≤ dataSize sign buf then
    (readData buf 0 (dataSize sign buf).toNat).map fun data =>
      { length := frameLength sign buf
        -- reinterpreted on a little-endian host
        address := UInt64.ofNat (Nat.ofDigits 256 ((address64 buf).map UInt8.toNat))
        data := data
        status := statusByte buf
        command := (([] : List UInt8).set 0 (buf[15])).set 1
          (buf[16]) }
  else none

/-- `receive` after its read: the two tests, then the callback. -/
def parseBuffer : Option ReceiveExit :=
  if statusByte buf = 0x01 then some .statusError
  else if (rxSum sign buf).setWidth 8 ≠ 0xFF#8 then some .checksumError
  else (decodeFrame sign buf).map .delivered

end

/-- `XBeeHandler::receive`. -/
def receive (sign : CharSign) : ReadResult → Option ReceiveExit
  | .error => some .readError
  | .bytes content fits => parseBuffer sign (rxBuf content fits)

/-- `receive` invokes the callback exactly when it returns true. -/
theorem ReceiveExit.length_calls (exit : ReceiveExit) :
    exit.calls.length = if exit.returned then 1 else 0 := by
  cases exit <;> rfl

/-! ## The buffer -/

theorem toList_rxBuf {content : List UInt8} (fits : content.length ≤ 128) :
    (rxBuf content fits).toList = content ++ List.replicate (128 - content.length) 0 := by
  simp [rxBuf, Vector.toList]

theorem getElem_rxBuf {content : List UInt8} (fits : content.length ≤ 128) {k : ℕ} (hk : k < 128) :
    (rxBuf content fits)[k] = content.getD k 0 := by
  have hlist : k < (rxBuf content fits).toList.length := by simpa using hk
  rw [← Vector.getElem_toList hlist, List.getElem_of_eq (toList_rxBuf fits)]
  rcases Nat.lt_or_ge k content.length with hlt | hge
  · rw [List.getElem_append_left hlt, List.getD_eq_getElem _ _ hlt]
  · rw [List.getElem_append_right hge, List.getElem_replicate, List.getD_eq_default _ _ hge]

theorem byteSum_drop_rxBuf {content : List UInt8} (fits : content.length ≤ 128) (n : ℕ) :
    byteSum ((rxBuf content fits).toList.drop n) = byteSum (content.drop n) := by
  rw [toList_rxBuf fits, List.drop_append, byteSum_append, List.drop_replicate,
    byteSum_replicate_zero, Nat.add_zero]

/-! ## The two tests -/

theorem CharSign.setWidth_toInt (sign : CharSign) (char : UInt8) :
    (sign.toInt char).setWidth 8 = char.toBitVec := by
  cases sign with
  | signed =>
      -- the copies of the sign lie above the byte
      apply BitVec.eq_of_getLsbD_eq
      intro i hi
      simp [CharSign.toInt, BitVec.getLsbD_signExtend, hi]
      omega
  | unsigned =>
      rw [CharSign.toInt, BitVec.setWidth_setWidth_of_le _ (by omega), BitVec.setWidth_eq]

/-- The checksum test looks at the bytes alone, whatever the sign of `char`. -/
theorem rxSum_eq_iff (sign : CharSign) (buf : Vector UInt8 128) :
    (rxSum sign buf).setWidth 8 = 0xFF#8 ↔ byteSum (buf.toList.drop 3) % 256 = 255 := by
  rw [rxSum, setWidth_accumulate sign.setWidth_toInt, ← BitVec.toNat_inj, BitVec.toNat_ofNat]
  simp

/-! ## The length field -/

/-- The upper byte of the length, shifted: its sign is shifted out of the 16 bits. -/
theorem CharSign.setWidth_toInt_shiftLeft (sign : CharSign) (char : UInt8) :
    (sign.toInt char <<< 8).setWidth 16 = char.toBitVec.setWidth 16 <<< 8 := by
  apply BitVec.eq_of_getLsbD_eq
  intro i hi
  simp only [BitVec.getLsbD_setWidth, BitVec.getLsbD_shiftLeft]
  by_cases hlow : i < 8
  · simp [hlow]
  · have h₁ : i < 32 := by omega
    have h₂ : i - 8 < 32 := by omega
    have h₃ : i - 8 < 16 := by omega
    have h₄ : i - 8 < 8 := by omega
    cases sign with
    | signed => simp [CharSign.toInt, BitVec.getElem_signExtend, hi, hlow, h₁, h₂, h₃, h₄]
    | unsigned => simp [CharSign.toInt, hi, hlow, h₁, h₂, h₃]

/-- The length field as the API frame means it. -/
def bigEndianLength (buf : Vector UInt8 128) : ℕ :=
  beValue [buf[1], buf[2]]

/-- A lower byte below `0x80` is not sign-extended, and the length is the big-endian
value. -/
theorem toNat_frameLength (sign : CharSign) (buf : Vector UInt8 128)
    (hlow : sign = .unsigned ∨ buf[2].toNat < 128) :
    (frameLength sign buf).toNat = bigEndianLength buf := by
  have hwiden : sign.toInt buf[2] = buf[2].toBitVec.setWidth 32 := by
    cases sign with
    | unsigned => rfl
    | signed =>
        have hlt : buf[2].toNat < 128 := by simpa using hlow
        have hmsb : buf[2].toBitVec.msb = false := by
          rw [BitVec.msb_eq_false_iff_two_mul_lt]
          simp only [UInt8.toNat_toBitVec]
          omega
        rw [CharSign.toInt, BitVec.signExtend_eq_setWidth_of_msb_false hmsb]
  rw [frameLength, UInt16.toNat_ofBitVec, BitVec.setWidth_or, sign.setWidth_toInt_shiftLeft, hwiden,
    BitVec.setWidth_setWidth_of_le _ (by omega), toNat_joinBytes, bigEndianLength]

/-- A sign-extended lower byte sets the upper byte of the length. -/
theorem le_toNat_frameLength (buf : Vector UInt8 128) (hlow : 128 ≤ buf[2].toNat) :
    65408 ≤ (frameLength .signed buf).toNat := by
  have hmsb : buf[2].toBitVec.msb = true := by
    rw [BitVec.msb_eq_true_iff_two_mul_ge]
    simp only [UInt8.toNat_toBitVec]
    omega
  have h₂ := buf[2].toNat_lt
  have hwiden : ((CharSign.signed.toInt buf[2]).setWidth 16).toNat = 65280 + buf[2].toNat := by
    rw [CharSign.toInt, BitVec.toNat_setWidth, BitVec.toNat_signExtend, hmsb]
    simp
    omega
  rw [frameLength, UInt16.toNat_ofBitVec, BitVec.setWidth_or, BitVec.toNat_or]
  calc 65408 ≤ ((CharSign.signed.toInt buf[2]).setWidth 16).toNat := by omega
    _ ≤ _ := Nat.left_le_or

/-- Whether the data loop stays inside the buffer depends on the big-endian length alone. -/
theorem frameLength_inside_iff (sign : CharSign) (buf : Vector UInt8 128) :
    (15 ≤ (frameLength sign buf).toNat ∧ (frameLength sign buf).toNat ≤ 125) ↔
      (15 ≤ bigEndianLength buf ∧ bigEndianLength buf ≤ 125) := by
  by_cases hlow : sign = .unsigned ∨ buf[2].toNat < 128
  · rw [toNat_frameLength sign buf hlow]
  · obtain ⟨hsign, hhigh⟩ := not_or.mp hlow
    obtain rfl : sign = .signed := by
      cases sign with
      | signed => rfl
      | unsigned => exact absurd rfl hsign
    have hlarge := le_toNat_frameLength buf (not_lt.mp hhigh)
    rw [bigEndianLength, beValue_pair]
    omega

/-! ## The data loop -/

theorem readData_eq_some (buf : Vector UInt8 128) {size elements : ℕ}
    (hle : 18 + size + elements ≤ 128) :
    readData buf size elements =
      some (((buf.toList.drop (18 + size)).take elements).map UInt8.toInt8) := by
  induction elements generalizing size with
  | zero => simp [readData]
  | succ elements ih =>
      have hlt : 18 + size < buf.toList.length := by simp; omega
      have hget : buf[18 + size]? = some buf.toList[18 + size] := by
        simp
      rw [readData, hget, ih (by omega), List.drop_eq_getElem_cons hlt]
      simp [Nat.add_assoc]

theorem readData_eq_none (buf : Vector UInt8 128) {size elements : ℕ} (helements : 0 < elements)
    (hgt : 128 < 18 + size + elements) : readData buf size elements = none := by
  induction elements generalizing size with
  | zero => omega
  | succ elements ih =>
      rw [readData]
      by_cases hlt : 18 + size < 128
      · rw [ih (by omega) (by omega)]
        simp
      · rw [Vector.getElem?_eq_none (by omega)]
        rfl

/-- The frame is decoded exactly when the data array has a size and the data loop stays
inside the buffer. -/
theorem isSome_decodeFrame_iff (sign : CharSign) (buf : Vector UInt8 128) :
    (decodeFrame sign buf).isSome ↔
      15 ≤ (frameLength sign buf).toNat ∧ (frameLength sign buf).toNat ≤ 125 := by
  unfold decodeFrame dataSize
  by_cases hlow : 15 ≤ (frameLength sign buf).toNat
  · rw [if_pos (by omega), Option.isSome_map]
    by_cases hhigh : (frameLength sign buf).toNat ≤ 125
    · rw [readData_eq_some buf (by omega)]
      simp [hlow, hhigh]
    · rw [readData_eq_none buf (by omega) (by omega)]
      simp [hhigh]
  · rw [if_neg (by omega)]
    simp [hlow]

end XbeeAssignment.XBee
