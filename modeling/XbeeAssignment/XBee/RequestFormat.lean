import XbeeAssignment.XBee.Exchange
import Mathlib.Data.List.GetD

/-!
# The request frame is well formed and loses nothing

`decodeRequest` is a reference decoder for the Remote AT Command Request: it
reads the length field at 1, the address at 5, the AT command at 16, and as many
parameters from 18 on as the length leaves.  The offsets are those of the API
frame, written as numbers, so that they do not follow `frame_structure`.

The length field has 16 bits and the parameters are not counted against it, so
all that depends on the length holds exactly up to `15 + |cmd_params| ≤ 65535`.
-/

namespace XbeeAssignment.XBee

open ByteString

/-- The content of a Remote AT Command Request. -/
structure Request where
  address : Vector UInt8 8
  command : UInt8 × UInt8
  params : List UInt8
  deriving DecidableEq

/-- The big-endian length at bytes 1 and 2. -/
def lengthField (frame : List UInt8) : ℕ :=
  beValue ((frame.drop 1).take 2)

/-- The reference decoder. -/
def decodeRequest (frame : List UInt8) : Request where
  address := Vector.ofFn fun k => frame.getD (5 + k) 0
  command := (frame.getD 16 0, frame.getD 17 0)
  params := (frame.drop 18).take (lengthField frame - 15)

/-! ## The fields of the frame -/

section

variable {address : Vector UInt8 8} {cmd cmdParams frame : List UInt8}

theorem exists_txFrame (address : Vector UInt8 8) (cmdParams : List UInt8)
    (hcmd : 2 ≤ cmd.length) : ∃ frame, txFrame address cmd cmdParams = some frame := by
  obtain ⟨cmd₀, cmd₁, rest, rfl⟩ : ∃ cmd₀ cmd₁ rest, cmd = cmd₀ :: cmd₁ :: rest := by
    match cmd, hcmd with
    | cmd₀ :: cmd₁ :: rest, _ => exact ⟨cmd₀, cmd₁, rest, rfl⟩
  exact ⟨_, txFrame_eq ..⟩

/-- The frame of a command, with the command's first two characters read off. -/
theorem txFrame_eq_some (hcmd : 2 ≤ cmd.length)
    (hframe : txFrame address cmd cmdParams = some frame) :
    frame = [0x7E, highByte (15 + cmdParams.length), lowByte (15 + cmdParams.length)] ++
      txBody address cmd[0] cmd[1] cmdParams ++
      [(0xFF : UInt8) - UInt8.ofNat (byteSum (txBody address cmd[0] cmd[1] cmdParams))] := by
  match cmd, hcmd with
  | cmd₀ :: cmd₁ :: rest, _ =>
      rw [txFrame_eq] at hframe
      exact (Option.some.inj hframe).symm

theorem lengthField_txFrame (hcmd : 2 ≤ cmd.length)
    (hframe : txFrame address cmd cmdParams = some frame) :
    lengthField frame = (15 + cmdParams.length) % 65536 := by
  rw [txFrame_eq_some hcmd hframe, ← beValue_highByte_lowByte]
  rfl

theorem length_txFrame (hcmd : 2 ≤ cmd.length)
    (hframe : txFrame address cmd cmdParams = some frame) :
    frame.length = 19 + cmdParams.length := by
  rw [txFrame_eq_some hcmd hframe]
  simp only [List.length_append, length_txBody, List.length_cons, List.length_nil]
  omega

theorem byteSum_txFrame (hcmd : 2 ≤ cmd.length)
    (hframe : txFrame address cmd cmdParams = some frame) :
    byteSum (frame.drop 3) % 256 = 255 := by
  rw [txFrame_eq_some hcmd hframe, List.append_assoc]
  exact byteSum_append_complement _ rfl

/-- The length field is the number of bytes between it and the checksum exactly up to the
largest number it can hold. -/
theorem lengthField_eq_iff (hcmd : 2 ≤ cmd.length)
    (hframe : txFrame address cmd cmdParams = some frame) :
    lengthField frame = frame.length - 4 ↔ 15 + cmdParams.length ≤ 65535 := by
  rw [lengthField_txFrame hcmd hframe, length_txFrame hcmd hframe]
  omega

theorem decodeRequest_txFrame (hcmd : 2 ≤ cmd.length)
    (hframe : txFrame address cmd cmdParams = some frame)
    (hbound : 15 + cmdParams.length ≤ 65535) :
    decodeRequest frame = ⟨address, (cmd[0], cmd[1]), cmdParams⟩ := by
  have hlength : lengthField frame - 15 = cmdParams.length := by
    rw [lengthField_txFrame hcmd hframe]
    omega
  rw [decodeRequest, hlength, txFrame_eq_some hcmd hframe, txBody, toList_eq_of_eight]
  congr 1
  · apply Vector.ext
    intro k hk
    rw [Vector.getElem_ofFn]
    interval_cases k <;> rfl
  · exact List.take_left' rfl

end

/-- No frame is written for a command of fewer than two characters. -/
theorem writes_exchangeThread_of_short (serialFd : ℤ) (globalRetries : UInt32)
    (address : Vector UInt8 8) {cmd : List UInt8} (cmdParams : List UInt8)
    (outcomes : ℕ → ReceiveExit) (hcmd : cmd.length < 2) :
    (exchangeThread serialFd globalRetries address cmd cmdParams outcomes).writes = [] := by
  rw [exchangeThread, txFrame_eq_none hcmd]

/-! ## The main statement -/

/-- **Request encoding.**  The frame of a command of at least two characters is well formed,
its length field is right exactly up to 65535, and up to there the reference decoder
recovers the request, so that no two requests share a frame.  A shorter command writes
nothing. -/
theorem request_encoding :
    (∀ (address : Vector UInt8 8) (cmd cmdParams : List UInt8) (_ : 2 ≤ cmd.length),
      ∃ frame, txFrame address cmd cmdParams = some frame ∧
        frame[0]? = some 0x7E ∧
        byteSum (frame.drop 3) % 256 = 255 ∧
        (lengthField frame = frame.length - 4 ↔ 15 + cmdParams.length ≤ 65535) ∧
        (15 + cmdParams.length ≤ 65535 →
          decodeRequest frame = ⟨address, (cmd[0], cmd[1]), cmdParams⟩)) ∧
    (∀ (address address' : Vector UInt8 8) (cmd cmd' cmdParams cmdParams' : List UInt8)
      (_ : 2 ≤ cmd.length) (_ : 2 ≤ cmd'.length),
      15 + cmdParams.length ≤ 65535 → 15 + cmdParams'.length ≤ 65535 →
      txFrame address cmd cmdParams = txFrame address' cmd' cmdParams' →
        address = address' ∧ cmd[0] = cmd'[0] ∧ cmd[1] = cmd'[1] ∧ cmdParams = cmdParams') ∧
    (∀ (serialFd : ℤ) (globalRetries : UInt32) (address : Vector UInt8 8)
      (cmd cmdParams : List UInt8) (outcomes : ℕ → ReceiveExit), cmd.length < 2 →
      (exchangeThread serialFd globalRetries address cmd cmdParams outcomes).writes = []) := by
  refine ⟨?_, ?_, ?_⟩
  · intro address cmd cmdParams hcmd
    obtain ⟨frame, hframe⟩ := exists_txFrame address cmdParams hcmd
    refine ⟨frame, hframe, ?_, byteSum_txFrame hcmd hframe, lengthField_eq_iff hcmd hframe,
      decodeRequest_txFrame hcmd hframe⟩
    rw [txFrame_eq_some hcmd hframe]
    rfl
  · intro address address' cmd cmd' cmdParams cmdParams' hcmd hcmd' hbound hbound' heq
    obtain ⟨frame, hframe⟩ := exists_txFrame address cmdParams hcmd
    have hsame : (⟨address, (cmd[0], cmd[1]), cmdParams⟩ : Request) =
        ⟨address', (cmd'[0], cmd'[1]), cmdParams'⟩ := by
      rw [← decodeRequest_txFrame hcmd hframe hbound,
        ← decodeRequest_txFrame hcmd' (heq ▸ hframe) hbound']
    simpa [and_assoc] using hsame
  · intro serialFd globalRetries address cmd cmdParams outcomes hcmd
    exact writes_exchangeThread_of_short serialFd globalRetries address cmdParams outcomes hcmd

end XbeeAssignment.XBee
