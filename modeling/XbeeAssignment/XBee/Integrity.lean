import XbeeAssignment.XBee.Delivery

/-!
# What the verdict on a buffer depends on

The two builds disagree on the value of a byte from `0x80` on.  They agree on the
verdict all the same (`parseBuffer_signed_eq_unsigned`): the checksum keeps the
low byte of the sum only, and a length whose lower byte is sign-extended is far
outside the buffer, as the length without the extension is.

The checksummed part begins at index 3, and the sum over it ends in `0xFF` for an
accepted buffer.  Replacing one byte of it changes the sum by less than 256 and
not by 0, so that the changed buffer is rejected (`receive_corrupted`), if not by
the status test before.
-/

namespace XbeeAssignment.XBee

open ByteString

/-! ## The sign of `char` -/

/-- The length field of a buffer that is decoded does not depend on the sign of `char`. -/
theorem frameLength_eq_of_inside (sign : CharSign) {buf : Vector UInt8 128}
    (hinside : bigEndianLength buf ≤ 125) :
    frameLength sign buf = UInt16.ofNat (bigEndianLength buf) := by
  have hlow : buf[2].toNat < 128 := by
    rw [bigEndianLength, beValue_pair] at hinside
    omega
  rw [← toNat_frameLength sign buf (.inr hlow), UInt16.ofNat_toNat]

theorem decodeFrame_eq_none_iff (sign : CharSign) (buf : Vector UInt8 128) :
    decodeFrame sign buf = none ↔ ¬ DecodesInside sign buf := by
  rw [← Option.not_isSome_iff_eq_none, isSome_decodeFrame_iff, frameLength_inside_iff,
    decodesInside_iff]

/-- The decoding sees the sign of `char` through the length only. -/
theorem decodeFrame_congr {sign sign' : CharSign} {buf : Vector UInt8 128}
    (hlength : frameLength sign buf = frameLength sign' buf) :
    decodeFrame sign buf = decodeFrame sign' buf := by
  unfold decodeFrame dataSize
  rw [hlength]

theorem decodeFrame_signed_eq_unsigned (buf : Vector UInt8 128) :
    decodeFrame .signed buf = decodeFrame .unsigned buf := by
  by_cases hinside : 15 ≤ bigEndianLength buf ∧ bigEndianLength buf ≤ 125
  · apply decodeFrame_congr
    calc frameLength .signed buf = UInt16.ofNat (bigEndianLength buf) :=
          frameLength_eq_of_inside .signed hinside.2
      _ = frameLength .unsigned buf := (frameLength_eq_of_inside .unsigned hinside.2).symm
  · have hnone : ∀ sign, decodeFrame sign buf = none := by
      intro sign
      rw [decodeFrame_eq_none_iff, decodesInside_iff]
      exact hinside
    rw [hnone .signed, hnone .unsigned]

theorem parseBuffer_signed_eq_unsigned (buf : Vector UInt8 128) :
    parseBuffer .signed buf = parseBuffer .unsigned buf := by
  have hsum : (rxSum .signed buf).setWidth 8 = 0xFF#8 ↔
      (rxSum .unsigned buf).setWidth 8 = 0xFF#8 := by
    rw [rxSum_eq_iff, rxSum_eq_iff]
  unfold parseBuffer
  simp only [ne_eq, hsum, decodeFrame_signed_eq_unsigned]

/-- `none` is what the tests do not exclude: they pass, and the data range is invalid. -/
theorem parseBuffer_eq_none_iff (sign : CharSign) (buf : Vector UInt8 128) :
    parseBuffer sign buf = none ↔ PassesTests sign buf ∧ ¬ DecodesInside sign buf := by
  rw [← decodeFrame_eq_none_iff]
  unfold parseBuffer PassesTests
  by_cases hstatus : statusByte buf = 0x01
  · simp [hstatus]
  · by_cases hsum : (rxSum sign buf).setWidth 8 = 0xFF#8 <;> simp [hstatus, hsum]

/-- **The sign of `char`.**  For every buffer and every read the native build and the ARM build
agree: both reject, both call the callback with the same frame, or both run into an invalid data
range, of a length below 15 or an index of 128 or more. -/
theorem receive_independent_of_char_sign :
    (∀ buf, parseBuffer .signed buf = parseBuffer .unsigned buf) ∧
      (∀ read, receive .signed read = receive .unsigned read) ∧
      ∀ sign buf, parseBuffer sign buf = none ↔
        PassesTests sign buf ∧ (dataSize sign buf < 0 ∨ ∃ k : ℕ, k < dataSize sign buf ∧
          128 ≤ 18 + k) := by
  refine ⟨parseBuffer_signed_eq_unsigned, ?_, ?_⟩
  · intro read
    cases read with
    | error => rfl
    | bytes content fits => exact parseBuffer_signed_eq_unsigned _
  · intro sign buf
    rw [parseBuffer_eq_none_iff, DecodesInside, not_and_or, not_le]
    simp only [not_forall, not_lt, exists_prop]

/-! ## A corrupted byte -/

/-- A read of the whole buffer in which one byte has been replaced. -/
def corrupted (buf : Vector UInt8 128) (i : Fin 128) (byte : UInt8) : ReadResult :=
  .bytes (buf.set i byte).toList (by simp)

theorem rxBuf_toList (buf : Vector UInt8 128) (fits : buf.toList.length ≤ 128) :
    rxBuf buf.toList fits = buf := by
  apply Vector.toList_inj.mp
  rw [toList_rxBuf]
  simp

/-- A buffer that is accepted passes the checksum test. -/
theorem byteSum_of_returnsTrue {sign : CharSign} {content : List UInt8}
    {fits : content.length ≤ 128} (haccepted : ReturnsTrue sign (.bytes content fits)) :
    byteSum ((rxBuf content fits).toList.drop 3) % 256 = 255 := by
  rw [returnsTrue_iff_invokesCallback, invokesCallback_iff] at haccepted
  exact (rxSum_eq_iff sign _).mp haccepted.1.2

/-- A buffer with another sum is rejected by one of the tests. -/
theorem parseBuffer_of_byteSum_ne (sign : CharSign) {buf : Vector UInt8 128}
    (hsum : byteSum (buf.toList.drop 3) % 256 ≠ 255) :
    parseBuffer sign buf = some .statusError ∨ parseBuffer sign buf = some .checksumError := by
  have hfails : (rxSum sign buf).setWidth 8 ≠ 0xFF#8 := by
    rw [ne_eq, rxSum_eq_iff]
    exact hsum
  unfold parseBuffer
  by_cases hstatus : statusByte buf = 0x01
  · exact .inl (by rw [if_pos hstatus])
  · exact .inr (by rw [if_neg hstatus, if_pos hfails])

/-- **Single-byte corruption.**  Replacing one byte of the checksummed part of a buffer that
`receive` accepts makes it return false without calling the callback. -/
theorem receive_corrupted (sign : CharSign) (content : List UInt8) (fits : content.length ≤ 128)
    (haccepted : ReturnsTrue sign (.bytes content fits)) (i : Fin 128) (hi : 3 ≤ i.val)
    (byte : UInt8) (hbyte : byte ≠ (rxBuf content fits)[i]) :
    ∃ exit, receive sign (corrupted (rxBuf content fits) i byte) = some exit ∧
      exit.returned = false ∧ exit.calls = [] := by
  have hsum := byteSum_of_returnsTrue haccepted
  have hshift : ((rxBuf content fits).set i byte).toList.drop 3 =
      ((rxBuf content fits).toList.drop 3).set (i.val - 3) byte := by
    rw [Vector.toList_set, List.drop_set, if_neg (by omega)]
  have hchanged : byteSum (((rxBuf content fits).set i byte).toList.drop 3) % 256 ≠ 255 := by
    rw [hshift, ← hsum]
    apply byteSum_set_mod_ne (by simp; omega)
    rw [List.getElem_drop, Vector.getElem_toList]
    simpa [Nat.add_sub_cancel' hi] using hbyte
  rw [corrupted, receive, rxBuf_toList]
  rcases parseBuffer_of_byteSum_ne sign hchanged with hexit | hexit
  · exact ⟨_, hexit, rfl, rfl⟩
  · exact ⟨_, hexit, rfl, rfl⟩

/-- A response without data, and a byte far behind it. -/
theorem receive_corrupted_dataless :
    ∃ exit, receive .signed (corrupted (rxBuf [0x7E, 0x00, 0x0F, 0x97, 0x01, 0x00, 0x13, 0xA2, 0x00,
        0x40, 0xE7, 0x1A, 0xDD, 0x7D, 0x84, 0x44, 0x31, 0x00, 0x1E] (by decide)) 100 0x80) =
          some exit ∧
      exit.returned = false ∧ exit.calls = [] := by
  apply receive_corrupted .signed _ (by decide) _ 100 (by decide) 0x80
  · rw [Fin.getElem_fin, getElem_rxBuf]
    decide
  · rw [returnsTrue_iff_invokesCallback, invokesCallback_iff, passesTests_iff, decodesInside_iff,
      bigEndianLength, getElem_rxBuf, getElem_rxBuf]
    decide

end XbeeAssignment.XBee
