import XbeeAssignment.XBee.Receive
import XbeeAssignment.XBee.Request

/-!
# What `receive` makes of a read

`Response.encode` is the Remote AT Command Response as the module sends it.  A
read that begins with one is decoded field by field (`decodes_encode`), and a
read that is exactly one is delivered to the callback as it was sent.

The tests of `receive` say less than the format does.  The length field lies
outside the checksummed range and is compared with nothing, so the data loop
stays inside the buffer exactly for the lengths 15 to 125
(`decodes_inside_iff`); the start delimiter, the type byte and the number of
bytes read are not looked at.
-/

namespace XbeeAssignment.XBee

open ByteString

/-! ## The response format -/

/-- The content of a Remote AT Command Response. -/
structure Response where
  frameId : UInt8
  address : Vector UInt8 8
  network : Vector UInt8 2
  command : Vector UInt8 2
  status : UInt8
  data : List UInt8
  deriving DecidableEq

namespace Response

/-- The bytes the length field counts. -/
def body (r : Response) : List UInt8 :=
  [0x97, r.frameId] ++ r.address.toList ++ r.network.toList ++ r.command.toList ++ [r.status] ++
    r.data

/-- The frame on the serial line. -/
def encode (r : Response) : List UInt8 :=
  [0x7E, highByte r.body.length, lowByte r.body.length] ++ r.body ++
    [(0xFF : UInt8) - UInt8.ofNat (byteSum r.body)]

@[simp] theorem length_body (r : Response) : r.body.length = 15 + r.data.length := by
  simp [body]
  omega

@[simp] theorem length_encode (r : Response) : r.encode.length = 19 + r.data.length := by
  simp [encode]
  omega

theorem toList_eq_of_two (v : Vector UInt8 2) : v.toList = [v[0], v[1]] := by
  apply List.ext_getElem
  · simp
  · intro k hk _
    have hlt : k < 2 := by simpa using hk
    interval_cases k <;> simp

theorem length_encode_le {r : Response} (hdata : r.data.length ≤ 109) :
    r.encode.length ≤ 128 := by
  rw [length_encode]
  omega

/-- The 18 bytes before the data. -/
def header (r : Response) : List UInt8 :=
  [0x7E, highByte (15 + r.data.length), lowByte (15 + r.data.length), 0x97, r.frameId,
    r.address.get 0, r.address.get 1, r.address.get 2, r.address.get 3, r.address.get 4,
    r.address.get 5, r.address.get 6, r.address.get 7, r.network.get 0, r.network.get 1,
    r.command.get 0, r.command.get 1, r.status]

theorem encode_eq (r : Response) :
    r.encode = r.header ++ (r.data ++ [(0xFF : UInt8) - UInt8.ofNat (byteSum r.body)]) := by
  rw [encode, length_body, body, toList_eq_of_eight, toList_eq_of_two, toList_eq_of_two, header]
  simp only [List.cons_append, List.nil_append]
  rfl

theorem byteSum_encode (r : Response) : byteSum (r.encode.drop 3) % 256 = 255 := by
  rw [encode, List.append_assoc]
  exact byteSum_append_complement _ rfl

end Response

/-! ## Decoding a read that begins with a response -/

section

variable {r : Response} {rest : List UInt8} (fits : (r.encode ++ rest).length ≤ 128)

theorem statusByte_encode : statusByte (rxBuf (r.encode ++ rest) fits) = r.status := by
  rw [statusByte, getElem_rxBuf, Response.encode_eq]
  rfl

theorem frameLength_encode (sign : CharSign) :
    (frameLength sign (rxBuf (r.encode ++ rest) fits)).toNat = 15 + r.data.length := by
  have hdata : 19 + r.data.length ≤ 128 := by
    rw [List.length_append, Response.length_encode] at fits
    omega
  have hhigh : (rxBuf (r.encode ++ rest) fits)[1] = highByte (15 + r.data.length) := by
    rw [getElem_rxBuf, Response.encode_eq]
    rfl
  have hlow : (rxBuf (r.encode ++ rest) fits)[2] = lowByte (15 + r.data.length) := by
    rw [getElem_rxBuf, Response.encode_eq]
    rfl
  rw [toNat_frameLength, bigEndianLength, hhigh, hlow, beValue_highByte_lowByte,
    Nat.mod_eq_of_lt (by omega)]
  -- the lower byte is below `0x80`, for either sign of `char`
  right
  rw [hlow, lowByte, UInt8.toNat_ofNat']
  omega

theorem address64_encode :
    address64 (rxBuf (r.encode ++ rest) fits) = r.address.toList.reverse := by
  rw [toList_eq_of_eight]
  simp only [address64, getElem_rxBuf, Response.encode_eq]
  rfl

theorem drop_encode (n : ℕ) (hn : n ≤ r.data.length) :
    ((rxBuf (r.encode ++ rest) fits).toList.drop 18).take n = r.data.take n := by
  rw [toList_rxBuf, Response.encode_eq, List.append_assoc, List.append_assoc,
    List.drop_left' (show r.header.length = 18 from rfl), List.append_assoc,
    List.take_append_of_le_length hn]

/-- Every field of a response at the front of the buffer is decoded as it was sent. -/
theorem decodes_encode (sign : CharSign) :
    decodeFrame sign (rxBuf (r.encode ++ rest) fits) =
      some { length := UInt16.ofNat (15 + r.data.length)
             address := UInt64.ofNat (beValue r.address.toList)
             data := r.data.map UInt8.toInt8
             status := r.status
             command := [] } := by
  have hfits := fits
  rw [List.length_append, Response.length_encode] at hfits
  have hlength := frameLength_encode fits sign
  have hsize : dataSize sign (rxBuf (r.encode ++ rest) fits) = r.data.length := by
    rw [dataSize, hlength]
    omega
  have hfield : frameLength sign (rxBuf (r.encode ++ rest) fits) =
      UInt16.ofNat (15 + r.data.length) := by
    rw [← hlength, UInt16.ofNat_toNat]
  rw [decodeFrame, hsize, if_pos (by omega), Int.toNat_natCast,
    readData_eq_some _ (by omega), Nat.add_zero, drop_encode fits _ le_rfl, List.take_length,
    hfield, address64_encode, statusByte_encode]
  rfl

theorem command_encode :
    ((rxBuf (r.encode ++ rest) fits).toList.drop 15).take 2 = r.command.toList := by
  rw [toList_rxBuf, Response.encode_eq, Response.toList_eq_of_two]
  rfl

/-- Whatever follows a response in the read, the callback gets no other address. -/
theorem address_of_calls_encode {sign : CharSign} {exit : ReceiveExit} {frame : XBeeFrame}
    (hexit : receive sign (.bytes (r.encode ++ rest) fits) = some exit)
    (hframe : frame ∈ exit.calls) :
    frame.address = UInt64.ofNat (beValue r.address.toList) := by
  rw [receive, parseBuffer, decodes_encode] at hexit
  -- the two failed tests call nothing
  split at hexit
  · cases hexit
    cases hframe
  split at hexit
  · cases hexit
    cases hframe
  cases hexit
  obtain rfl := List.mem_singleton.mp hframe
  rfl

end

theorem toNat_address (v : Vector UInt8 8) :
    (UInt64.ofNat (beValue v.toList)).toNat = beValue v.toList := by
  have hlt := beValue_lt v.toList
  rw [UInt64.toNat_ofNat', Nat.mod_eq_of_lt]
  simpa using hlt

theorem receive_encode (sign : CharSign) {r : Response} (hstatus : r.status ≠ 0x01)
    (fits : r.encode.length ≤ 128) :
    receive sign (.bytes r.encode fits) =
      some (.delivered
        { length := UInt16.ofNat (15 + r.data.length)
          address := UInt64.ofNat (beValue r.address.toList)
          data := r.data.map UInt8.toInt8
          status := r.status
          command := [] }) := by
  have happend : (r.encode ++ []).length ≤ 128 := by simpa using fits
  have hbuf : rxBuf r.encode fits = rxBuf (r.encode ++ []) happend := by
    simp only [List.append_nil]
  have hsum : (rxSum sign (rxBuf r.encode fits)).setWidth 8 = 0xFF#8 := by
    rw [rxSum_eq_iff, byteSum_drop_rxBuf]
    exact r.byteSum_encode
  have hok : statusByte (rxBuf r.encode fits) ≠ 0x01 := by
    rw [hbuf, statusByte_encode]
    exact hstatus
  rw [receive, parseBuffer, if_neg hok, if_neg (not_not.mpr hsum), hbuf, decodes_encode]
  rfl

/-- **Response decoding.**  When a read returns exactly a Remote AT Command Response whose
status is not `0x01`, the callback is called once, with the fields of that response. -/
theorem response_decoding (sign : CharSign) (r : Response) (hdata : r.data.length ≤ 109)
    (hstatus : r.status ≠ 0x01) :
    ∃ exit frame,
      receive sign (.bytes r.encode (Response.length_encode_le hdata)) = some exit ∧
      exit.returned = true ∧ exit.calls = [frame] ∧
      frame.length.toNat = 15 + r.data.length ∧
      frame.address.toNat = beValue r.address.toList ∧
      frame.status = r.status ∧
      frame.data = r.data.map UInt8.toInt8 := by
  refine ⟨_, _, receive_encode sign hstatus _, rfl, rfl, ?_, toNat_address r.address, rfl, rfl⟩
  rw [UInt16.toNat_ofNat']
  omega

/-- An `IS` answer of the end node with one analog sample. -/
theorem response_decoding_sample :
    ∃ exit frame,
      receive .unsigned (.bytes (Response.encode
        { frameId := 0x01, address := #v[0x00, 0x13, 0xA2, 0x00, 0x40, 0xE7, 0x1A, 0xDD],
          network := #v[0x7D, 0x84], command := #v[0x49, 0x53], status := 0x00,
          data := [0x01, 0x00, 0x00, 0x04, 0x02, 0x1F] })
        (Response.length_encode_le (by decide))) = some exit ∧
      exit.returned = true ∧ exit.calls = [frame] ∧
      frame.length.toNat = 15 + 6 ∧
      frame.address.toNat = beValue [0x00, 0x13, 0xA2, 0x00, 0x40, 0xE7, 0x1A, 0xDD] ∧
      frame.status = 0x00 ∧
      frame.data = [0x01, 0x00, 0x00, 0x04, 0x02, 0x1F].map UInt8.toInt8 :=
  response_decoding .unsigned _ (by decide) (by decide)

/-! ## What the tests say about the length -/

/-- The status and the checksum test both pass. -/
def PassesTests (sign : CharSign) (buf : Vector UInt8 128) : Prop :=
  statusByte buf ≠ 0x01 ∧ (rxSum sign buf).setWidth 8 = 0xFF#8

/-- The data array has a size, and the data loop reads inside the buffer only. -/
def DecodesInside (sign : CharSign) (buf : Vector UInt8 128) : Prop :=
  0 ≤ dataSize sign buf ∧ ∀ k : ℕ, (k : ℤ) < dataSize sign buf → 18 + k < 128

theorem passesTests_iff (sign : CharSign) {content : List UInt8} (fits : content.length ≤ 128) :
    PassesTests sign (rxBuf content fits) ↔
      content.getD 17 0 ≠ 0x01 ∧ byteSum (content.drop 3) % 256 = 255 := by
  rw [PassesTests, rxSum_eq_iff, byteSum_drop_rxBuf, statusByte, getElem_rxBuf]

theorem decodesInside_iff (sign : CharSign) (buf : Vector UInt8 128) :
    DecodesInside sign buf ↔ 15 ≤ bigEndianLength buf ∧ bigEndianLength buf ≤ 125 := by
  rw [← frameLength_inside_iff sign buf, DecodesInside, dataSize]
  constructor
  · rintro ⟨hsize, hinside⟩
    refine ⟨by omega, ?_⟩
    by_contra hlarge
    -- the element at index 128 would be read
    have := hinside 110 (by omega)
    omega
  · rintro ⟨hlow, hhigh⟩
    exact ⟨by omega, fun k hk => by omega⟩

/-- **Decoding inside the buffer.**  A read that passes the tests is decoded inside the
buffer exactly when its big-endian length is from 15 to 125. -/
theorem decodes_inside_iff (sign : CharSign) (content : List UInt8) (fits : content.length ≤ 128) :
    (PassesTests sign (rxBuf content fits) → DecodesInside sign (rxBuf content fits)) ↔
      content.getD 17 0 = 0x01 ∨ byteSum (content.drop 3) % 256 ≠ 255 ∨
        (15 ≤ beValue [content.getD 1 0, content.getD 2 0] ∧
          beValue [content.getD 1 0, content.getD 2 0] ≤ 125) := by
  rw [passesTests_iff, decodesInside_iff, bigEndianLength, getElem_rxBuf, getElem_rxBuf]
  tauto

/-- A Modem Status frame, `7E 00 02 8A 06 6F`: its length is below 15. -/
theorem decodes_inside_modemStatus :
    ¬ (PassesTests .unsigned (rxBuf [0x7E, 0x00, 0x02, 0x8A, 0x06, 0x6F] (by decide)) →
      DecodesInside .unsigned (rxBuf [0x7E, 0x00, 0x02, 0x8A, 0x06, 0x6F] (by decide))) := by
  intro himp
  have hinside := himp ((passesTests_iff _ _).mpr (by decide))
  rw [decodesInside_iff, bigEndianLength, getElem_rxBuf, getElem_rxBuf] at hinside
  exact absurd hinside (by decide)

/-- A response with three bytes of data passes the tests and is decoded inside the buffer. -/
theorem decodes_inside_data :
    PassesTests .signed (rxBuf [0x7E, 0x00, 0x12, 0x97, 0x01, 0x00, 0x13, 0xA2, 0x00, 0x40, 0xE7,
      0x1A, 0xDD, 0x7D, 0x84, 0x44, 0x31, 0x00, 0x01, 0x02, 0x03, 0x18] (by decide)) ∧
    DecodesInside .signed (rxBuf [0x7E, 0x00, 0x12, 0x97, 0x01, 0x00, 0x13, 0xA2, 0x00, 0x40, 0xE7,
      0x1A, 0xDD, 0x7D, 0x84, 0x44, 0x31, 0x00, 0x01, 0x02, 0x03, 0x18] (by decide)) := by
  have hpasses : PassesTests .signed (rxBuf [0x7E, 0x00, 0x12, 0x97, 0x01, 0x00, 0x13, 0xA2, 0x00,
      0x40, 0xE7, 0x1A, 0xDD, 0x7D, 0x84, 0x44, 0x31, 0x00, 0x01, 0x02, 0x03, 0x18] (by decide)) :=
    (passesTests_iff _ _).mpr (by decide)
  exact ⟨hpasses, (decodes_inside_iff .signed _ _).mpr (by decide) hpasses⟩

/-! ## What reaches the callback -/

/-- `receive` calls the callback. -/
def InvokesCallback (sign : CharSign) (read : ReadResult) : Prop :=
  ∃ exit, receive sign read = some exit ∧ exit.calls ≠ []

/-- The read begins with a complete Remote AT Command Response. -/
def BeginsWithResponse (content : List UInt8) : Prop :=
  content[0]? = some 0x7E ∧ content[3]? = some 0x97 ∧
    15 ≤ beValue ((content.drop 1).take 2) ∧
    beValue ((content.drop 1).take 2) + 4 ≤ content.length ∧
    byteSum ((content.drop 3).take (beValue ((content.drop 1).take 2) + 1)) % 256 = 255

theorem invokesCallback_iff (sign : CharSign) {content : List UInt8}
    (fits : content.length ≤ 128) :
    InvokesCallback sign (.bytes content fits) ↔
      PassesTests sign (rxBuf content fits) ∧ DecodesInside sign (rxBuf content fits) := by
  have hdecode := isSome_decodeFrame_iff sign (rxBuf content fits)
  rw [frameLength_inside_iff, ← decodesInside_iff sign] at hdecode
  rw [← hdecode, InvokesCallback, PassesTests, receive, parseBuffer]
  by_cases hstatus : statusByte (rxBuf content fits) = 0x01
  · simp [hstatus, ReceiveExit.calls]
  by_cases hsum : (rxSum sign (rxBuf content fits)).setWidth 8 = 0xFF#8
  · cases decodeFrame sign (rxBuf content fits) <;> simp [hstatus, hsum, ReceiveExit.calls]
  · simp [hstatus, hsum, ReceiveExit.calls]

/-- **What reaches the callback.**  When the length is one the decoding can handle and no
byte follows the frame, the callback is called exactly if the status byte is not `0x01` and
the bytes from the type byte to the checksum sum to `0xFF`, whatever the start delimiter and
the type byte are and however much of the frame was read. -/
theorem invokes_callback_iff_of_lone (sign : CharSign) (content : List UInt8)
    (fits : content.length ≤ 128)
    (hlow : 15 ≤ beValue [content.getD 1 0, content.getD 2 0])
    (hhigh : beValue [content.getD 1 0, content.getD 2 0] ≤ 125)
    (hlone : content.length ≤ beValue [content.getD 1 0, content.getD 2 0] + 4) :
    InvokesCallback sign (.bytes content fits) ↔
      content.getD 17 0 ≠ 0x01 ∧
        byteSum ((content.drop 3).take (beValue [content.getD 1 0, content.getD 2 0] + 1)) % 256 =
          255 := by
  -- the frame ends where the read ends or behind it, so its sum is the sum over the buffer
  have hall : (content.drop 3).take (beValue [content.getD 1 0, content.getD 2 0] + 1) =
      content.drop 3 := by
    apply List.take_of_length_le
    rw [List.length_drop]
    omega
  rw [hall, invokesCallback_iff, passesTests_iff, decodesInside_iff, bigEndianLength,
    getElem_rxBuf, getElem_rxBuf]
  tauto

/-- A response without data reaches the callback. -/
theorem invokes_callback_dataless :
    InvokesCallback .signed (.bytes [0x7E, 0x00, 0x0F, 0x97, 0x01, 0x00, 0x13, 0xA2, 0x00, 0x40,
      0xE7, 0x1A, 0xDD, 0x7D, 0x84, 0x44, 0x31, 0x00, 0x1E] (by decide)) :=
  (invokes_callback_iff_of_lone .signed [0x7E, 0x00, 0x0F, 0x97, 0x01, 0x00, 0x13, 0xA2, 0x00,
    0x40, 0xE7, 0x1A, 0xDD, 0x7D, 0x84, 0x44, 0x31, 0x00, 0x1E]
    (by decide) (by decide) (by decide) (by decide)).mpr (by decide)

/-- The local AT Command Response `7E 00 0F 88 01 49 53 00 … DA`, of type `0x88`, reaches the
callback as well. -/
theorem invokes_callback_of_foreign :
    ¬ (InvokesCallback .unsigned (.bytes [0x7E, 0x00, 0x0F, 0x88, 0x01, 0x49, 0x53, 0x00,
        0, 0, 0, 0, 0, 0, 0, 0, 0, 0, 0xDA] (by decide)) →
      BeginsWithResponse [0x7E, 0x00, 0x0F, 0x88, 0x01, 0x49, 0x53, 0x00,
        0, 0, 0, 0, 0, 0, 0, 0, 0, 0, 0xDA]) := by
  intro himp
  refine absurd (himp ?_).2.1 (by decide)
  rw [invokesCallback_iff, passesTests_iff, decodesInside_iff, bigEndianLength, getElem_rxBuf,
    getElem_rxBuf]
  decide

end XbeeAssignment.XBee
