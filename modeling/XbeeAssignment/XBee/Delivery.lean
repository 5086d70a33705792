import XbeeAssignment.XBee.ResponseDecoding

/-!
# The verdict on a read and the frame it delivers

Two things `receive` gets wrong for reads that are as they should be.

The checksum is summed over the whole buffer, not over the frame.  Behind a
complete frame the buffer holds whatever else was read, a second response for
one, so the verdict is that of the frame exactly if the bytes behind it do not
matter for the sum (`verdict_follows_frame_iff`).  `exchange_thread` sums exactly
the frame it sends.

The AT command of a response is written by index into an empty string, which
stays empty, so that two responses are told apart by their address, their status
and their data only (`distinguishable_iff`).
-/

namespace XbeeAssignment.XBee

open ByteString

/-! ## The verdict -/

/-- The big-endian length at bytes 1 and 2 of a read. -/
def readLength (content : List UInt8) : ℕ :=
  beValue ((content.drop 1).take 2)

/-- The read begins with a complete frame that is long enough for a response. -/
structure BeginsWithFrame (content : List UInt8) : Prop where
  delimiter : content[0]? = some 0x7E
  le_length : 15 ≤ readLength content
  complete : readLength content + 4 ≤ content.length

instance (content : List UInt8) : Decidable (BeginsWithFrame content) :=
  decidable_of_iff (content[0]? = some 0x7E ∧ 15 ≤ readLength content ∧
      readLength content + 4 ≤ content.length)
    ⟨fun h => ⟨h.1, h.2.1, h.2.2⟩, fun h => ⟨h.1, h.2, h.3⟩⟩

/-- The bytes the frame's own checksum is over, with the checksum. -/
def summedBytes (content : List UInt8) : List UInt8 :=
  (content.drop 3).take (readLength content + 1)

/-- The bytes behind the frame. -/
def trailingBytes (content : List UInt8) : List UInt8 :=
  content.drop (readLength content + 4)

/-- `receive` returns true. -/
def ReturnsTrue (sign : CharSign) (read : ReadResult) : Prop :=
  ∃ exit, receive sign read = some exit ∧ exit.returned = true

/-- `receive` returns true exactly if the frame sums to `0xFF`. -/
def VerdictFollowsFrame (sign : CharSign) (content : List UInt8) (fits : content.length ≤ 128) :
    Prop :=
  ReturnsTrue sign (.bytes content fits) ↔ byteSum (summedBytes content) % 256 = 255

theorem ReceiveExit.calls_ne_nil_iff (exit : ReceiveExit) :
    exit.calls ≠ [] ↔ exit.returned = true := by
  cases exit <;> simp [ReceiveExit.calls, ReceiveExit.returned]

theorem returnsTrue_iff_invokesCallback (sign : CharSign) (read : ReadResult) :
    ReturnsTrue sign read ↔ InvokesCallback sign read := by
  simp only [ReturnsTrue, InvokesCallback, ReceiveExit.calls_ne_nil_iff]

section

variable {content : List UInt8}

theorem readLength_eq (hlength : 3 ≤ content.length) :
    readLength content = beValue [content.getD 1 0, content.getD 2 0] := by
  match content, hlength with
  | _ :: high :: low :: rest, _ => rfl

/-- The buffer's sum is that of the frame and that of the bytes behind it. -/
theorem byteSum_drop_eq (content : List UInt8) :
    byteSum (content.drop 3) =
      byteSum (summedBytes content) + byteSum (trailingBytes content) := by
  have htail : trailingBytes content = (content.drop 3).drop (readLength content + 1) := by
    rw [trailingBytes, List.drop_drop]
    congr 1
    omega
  rw [htail, summedBytes, ← byteSum_append, List.take_append_drop]

/-- Behind a complete frame the verdict is about all the bytes that were read. -/
theorem returnsTrue_iff_of_beginsWithFrame (sign : CharSign) (fits : content.length ≤ 128)
    (hframe : BeginsWithFrame content) (hstatus : content.getD 17 0 ≠ 0x01) :
    ReturnsTrue sign (.bytes content fits) ↔ byteSum (content.drop 3) % 256 = 255 := by
  obtain ⟨-, hlow, hcomplete⟩ := hframe
  have hinside : DecodesInside sign (rxBuf content fits) := by
    rw [decodesInside_iff, bigEndianLength, getElem_rxBuf, getElem_rxBuf,
      ← readLength_eq (by omega)]
    omega
  rw [returnsTrue_iff_invokesCallback, invokesCallback_iff, passesTests_iff]
  constructor
  · intro h
    exact h.1.2
  · intro hsum
    exact ⟨⟨hstatus, hsum⟩, hinside⟩

/-- **The verdict.**  Behind a complete frame the verdict is that of the frame exactly if the
bytes behind it sum to `0`, or neither the frame nor the whole read sums to `0xFF`. -/
theorem verdict_follows_frame_iff (sign : CharSign) (content : List UInt8)
    (fits : content.length ≤ 128) (hframe : BeginsWithFrame content)
    (hstatus : content.getD 17 0 ≠ 0x01) :
    VerdictFollowsFrame sign content fits ↔
      byteSum (trailingBytes content) % 256 = 0 ∨
        (byteSum (summedBytes content) % 256 ≠ 255 ∧
          byteSum (content.drop 3) % 256 ≠ 255) := by
  rw [VerdictFollowsFrame, returnsTrue_iff_of_beginsWithFrame sign fits hframe hstatus]
  have hsum := byteSum_drop_eq content
  omega

end

/-- A response without data, with two bytes behind it that sum to 0. -/
theorem verdict_follows_frame_tail :
    VerdictFollowsFrame .signed [0x7E, 0x00, 0x0F, 0x97, 0x01, 0x00, 0x13, 0xA2, 0x00, 0x40, 0xE7,
      0x1A, 0xDD, 0x7D, 0x84, 0x44, 0x31, 0x00, 0x1E, 0x80, 0x80] (by decide) :=
  (verdict_follows_frame_iff .signed _ (by decide) (by decide) (by decide)).mpr
    (.inl (by decide))

/-- The same response twice in one read, as a retry leaves it: the read is rejected. -/
theorem verdict_follows_frame_twice :
    ¬ VerdictFollowsFrame .unsigned
      [0x7E, 0x00, 0x0F, 0x97, 0x01, 0x00, 0x13, 0xA2, 0x00, 0x40, 0xE7, 0x1A, 0xDD, 0x7D, 0x84,
        0x44, 0x31, 0x00, 0x1E,
        0x7E, 0x00, 0x0F, 0x97, 0x01, 0x00, 0x13, 0xA2, 0x00, 0x40, 0xE7, 0x1A, 0xDD, 0x7D, 0x84,
        0x44, 0x31, 0x00, 0x1E] (by decide) := by
  rw [VerdictFollowsFrame,
    returnsTrue_iff_of_beginsWithFrame .unsigned (by decide) (by decide) (by decide)]
  decide

/-! ## The delivered frame -/

/-- A read of exactly this response makes `receive` hand `frame` to the callback. -/
def Delivers (sign : CharSign) (r : Response) (frame : XBeeFrame) : Prop :=
  ∃ fits, receive sign (.bytes r.encode fits) = some (.delivered frame)

/-- The frame of a response: every field of it but the AT command. -/
def Response.frame (r : Response) : XBeeFrame :=
  { length := UInt16.ofNat (15 + r.data.length)
    address := UInt64.ofNat (beValue r.address.toList)
    data := r.data.map UInt8.toInt8
    status := r.status
    command := [] }

theorem delivers_iff (sign : CharSign) {r : Response} (hdata : r.data.length ≤ 109)
    (hstatus : r.status ≠ 0x01) (frame : XBeeFrame) : Delivers sign r frame ↔ frame = r.frame := by
  have hreceive := receive_encode sign hstatus (Response.length_encode_le hdata)
  constructor
  · rintro ⟨fits, hframe⟩
    rw [hreceive] at hframe
    cases hframe
    rfl
  · rintro rfl
    exact ⟨_, hreceive⟩

theorem toInt8_injective : Function.Injective UInt8.toInt8 :=
  Function.LeftInverse.injective UInt8.toUInt8_toInt8

/-- The eight address bytes survive the reversal and the reinterpretation. -/
theorem address_injective {v v' : Vector UInt8 8}
    (heq : UInt64.ofNat (beValue v.toList) = UInt64.ofNat (beValue v'.toList)) : v = v' := by
  have hvalue : beValue v.toList = beValue v'.toList := by
    rw [← toNat_address v, heq, toNat_address v']
  have hlist : v.toList = v'.toList := eq_of_beValue_eq (by simp) hvalue
  exact Vector.toList_inj.mp hlist

/-- The frame keeps the address, the status and the data. -/
theorem frame_eq_iff (r r' : Response) :
    r.frame = r'.frame ↔ r.address = r'.address ∧ r.status = r'.status ∧ r.data = r'.data := by
  constructor
  · intro heq
    obtain ⟨-, haddress, hdata, hstatus, -⟩ := XBeeFrame.mk.inj heq
    exact ⟨address_injective haddress, hstatus,
      List.map_injective_iff.mpr toInt8_injective hdata⟩
  · rintro ⟨haddress, hstatus, hdata⟩
    unfold Response.frame
    rw [haddress, hstatus, hdata]

/-- If the two responses differ in what they say, so do the frames the callback gets. -/
def Distinguishable (sign : CharSign) (r r' : Response) : Prop :=
  r.address ≠ r'.address ∨ r.command ≠ r'.command ∨ r.status ≠ r'.status ∨ r.data ≠ r'.data →
    ∀ frame frame', Delivers sign r frame → Delivers sign r' frame' → frame ≠ frame'

/-- **Distinguishable frames.**  Two responses are told apart exactly unless they differ in
their AT command alone. -/
theorem distinguishable_iff (sign : CharSign) (r r' : Response) (hdata : r.data.length ≤ 109)
    (hdata' : r'.data.length ≤ 109) (hstatus : r.status ≠ 0x01) (hstatus' : r'.status ≠ 0x01) :
    Distinguishable sign r r' ↔
      r.address ≠ r'.address ∨ r.status ≠ r'.status ∨ r.data ≠ r'.data ∨
        r.command = r'.command := by
  have hframes : (∀ frame frame', Delivers sign r frame → Delivers sign r' frame' →
      frame ≠ frame') ↔ r.frame ≠ r'.frame := by
    simp only [delivers_iff sign hdata hstatus, delivers_iff sign hdata' hstatus']
    exact ⟨fun h => h _ _ rfl rfl, fun h frame frame' hframe hframe' => hframe ▸ hframe' ▸ h⟩
  rw [Distinguishable, hframes, ne_eq r.frame, frame_eq_iff]
  tauto

/-- A response with the status OK, to the first request of its sender. -/
def okResponse (address : Vector UInt8 8) (network command : Vector UInt8 2)
    (data : List UInt8) : Response :=
  { frameId := 0x01, address := address, network := network, command := command, status := 0x00,
    data := data }

/-- Two responses of one node to one AT command, with different data. -/
theorem distinguishable_sample :
    Distinguishable .unsigned
      (okResponse #v[0x00, 0x13, 0xA2, 0x00, 0x40, 0xE7, 0x1A, 0xDD] #v[0x7D, 0x84]
        #v[0x49, 0x53] [0x01])
      (okResponse #v[0x00, 0x13, 0xA2, 0x00, 0x40, 0xE7, 0x1A, 0xDD] #v[0x7D, 0x84]
        #v[0x49, 0x53] [0x02]) :=
  (distinguishable_iff .unsigned _ _ (by decide) (by decide) (by decide) (by decide)).mpr
    (by decide)

/-- The answers of one node to `IS` and to `D1` without data are one frame to the callback. -/
theorem not_distinguishable_command :
    ¬ Distinguishable .unsigned
      (okResponse #v[0x00, 0x13, 0xA2, 0x00, 0x40, 0xE7, 0x1A, 0xDD] #v[0x7D, 0x84]
        #v[0x49, 0x53] [])
      (okResponse #v[0x00, 0x13, 0xA2, 0x00, 0x40, 0xE7, 0x1A, 0xDD] #v[0x7D, 0x84]
        #v[0x44, 0x31] []) := by
  intro hdistinct
  have hdelivers : ∀ address network command,
      Delivers .unsigned (okResponse address network command [])
        (okResponse address network command []).frame :=
    fun address network command => (delivers_iff .unsigned (by simp [okResponse]) (by
      simp [okResponse]) _).mpr rfl
  exact hdistinct (by decide) _ _ (hdelivers _ _ _) (hdelivers _ _ _) rfl

end XbeeAssignment.XBee
