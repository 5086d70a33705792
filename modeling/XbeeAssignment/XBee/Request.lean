import XbeeAssignment.Lib.ByteString
import Mathlib.Tactic.IntervalCases

/-!
# The request frame

`txFrame` builds the Remote AT Command Request the way `exchange_thread` does:
a vector of `TX_FRAME_SIZE - 1` zeros is filled field by field, the parameters
are inserted at its end, and only then are the length and the checksum computed
from the size the vector has.  `txFrame_eq` is the frame written out.

`cmd.at(0)` and `cmd.at(1)` throw on a shorter command; that is the only way the
frame is not built, and `txFrame` is `none` there.
-/

namespace XbeeAssignment.XBee

open ByteString

/-! ## `enum frame_structure` -/

namespace FrameStructure

def startDelim : ℕ := 0
def length : ℕ := startDelim + 1
def type : ℕ := length + 2
def id : ℕ := type + 1
def addr64 : ℕ := id + 1
def addr16 : ℕ := addr64 + 8
def cmdOpt : ℕ := addr16 + 2
def atCmd : ℕ := cmdOpt + 1
def checksum : ℕ := atCmd + 2
def txFrameSize : ℕ := checksum + 1

end FrameStructure

/-! ## Building the frame -/

/-- The fixed part of the frame: every field but the length and the checksum. -/
def txHeader (address : Vector UInt8 8) (cmd₀ cmd₁ : UInt8) : List UInt8 :=
  List.replicate (FrameStructure.txFrameSize - 1) (0 : UInt8)
    |>.set FrameStructure.startDelim 0x7E
    |>.set FrameStructure.type 0x17
    |>.set FrameStructure.id 0x01
    |>.set (FrameStructure.addr64 + 0) address[0]
    |>.set (FrameStructure.addr64 + 1) address[1]
    |>.set (FrameStructure.addr64 + 2) address[2]
    |>.set (FrameStructure.addr64 + 3) address[3]
    |>.set (FrameStructure.addr64 + 4) address[4]
    |>.set (FrameStructure.addr64 + 5) address[5]
    |>.set (FrameStructure.addr64 + 6) address[6]
    |>.set (FrameStructure.addr64 + 7) address[7]
    |>.set (FrameStructure.addr16 + 0) 0xFF
    |>.set (FrameStructure.addr16 + 1) 0xFE
    |>.set FrameStructure.cmdOpt 0x02
    |>.set (FrameStructure.atCmd + 0) cmd₀
    |>.set (FrameStructure.atCmd + 1) cmd₁

/-- A `uint8_t` converted to `int`. -/
def widenByte (byte : UInt8) : BitVec 32 :=
  byte.toBitVec.setWidth 32

/-- `0xff - (uint8_t) sum`, where the `int` `sum` runs over the frame from index 3. -/
def txChecksum (frame : List UInt8) : UInt8 :=
  0xFF - UInt8.ofBitVec ((accumulate widenByte (frame.drop 3)).setWidth 8)

/-- The frame `exchange_thread` transmits; `none` when `cmd.at` throws. -/
def txFrame (address : Vector UInt8 8) (cmd cmdParams : List UInt8) : Option (List UInt8) := do
  let cmd₀ ← cmd[0]?
  let cmd₁ ← cmd[1]?
  -- the parameters go in before the length is computed
  let frame := txHeader address cmd₀ cmd₁ ++ cmdParams
  let frame := frame.set FrameStructure.length (highByte (frame.length - 3))
  let frame := frame.set (FrameStructure.length + 1) (lowByte (frame.length - 3))
  return frame ++ [txChecksum frame]

/-! ## The frame written out -/

/-- The bytes the length field counts: from the type byte to the last parameter. -/
def txBody (address : Vector UInt8 8) (cmd₀ cmd₁ : UInt8) (cmdParams : List UInt8) : List UInt8 :=
  [0x17, 0x01] ++ address.toList ++ [0xFF, 0xFE, 0x02, cmd₀, cmd₁] ++ cmdParams

theorem toList_eq_of_eight (v : Vector UInt8 8) :
    v.toList = [v[0], v[1], v[2], v[3], v[4], v[5], v[6], v[7]] := by
  apply List.ext_getElem
  · simp
  · intro k hk _
    have hlt : k < 8 := by simpa using hk
    interval_cases k <;> simp

@[simp] theorem length_txBody (address : Vector UInt8 8) (cmd₀ cmd₁ : UInt8)
    (cmdParams : List UInt8) :
    (txBody address cmd₀ cmd₁ cmdParams).length = 15 + cmdParams.length := by
  simp [txBody]
  omega

theorem txChecksum_eq (frame : List UInt8) :
    txChecksum frame = 0xFF - UInt8.ofNat (byteSum (frame.drop 3)) := by
  rw [txChecksum, setWidth_accumulate]
  · rfl
  · intro byte
    rw [widenByte, BitVec.setWidth_setWidth_of_le _ (by omega), BitVec.setWidth_eq]

/-- The frame of a command of at least two characters. -/
theorem txFrame_eq (address : Vector UInt8 8) (cmd₀ cmd₁ : UInt8) (rest cmdParams : List UInt8) :
    txFrame address (cmd₀ :: cmd₁ :: rest) cmdParams =
      some ([0x7E, highByte (15 + cmdParams.length), lowByte (15 + cmdParams.length)] ++
        txBody address cmd₀ cmd₁ cmdParams ++
        [0xFF - UInt8.ofNat (byteSum (txBody address cmd₀ cmd₁ cmdParams))]) := by
  have hheader : txHeader address cmd₀ cmd₁ =
      [0x7E, 0, 0] ++ [0x17, 0x01] ++ address.toList ++ [0xFF, 0xFE, 0x02, cmd₀, cmd₁] := by
    rw [toList_eq_of_eight]
    rfl
  have hlength : (txHeader address cmd₀ cmd₁ ++ cmdParams).length - 3 = 15 + cmdParams.length := by
    simp [hheader]
    omega
  simp only [txFrame, List.getElem?_cons_zero, List.getElem?_cons_succ, Option.bind_eq_bind,
    Option.bind_some, List.length_set, hlength, txChecksum_eq]
  simp [hheader, txBody, FrameStructure.length, FrameStructure.startDelim]

theorem txFrame_eq_none {cmd : List UInt8} (hcmd : cmd.length < 2) (address : Vector UInt8 8)
    (cmdParams : List UInt8) : txFrame address cmd cmdParams = none := by
  have hsecond : cmd[1]? = none := List.getElem?_eq_none (by omega)
  cases hfirst : cmd[0]? with
  | none => simp [txFrame, hfirst]
  | some cmd₀ => simp [txFrame, hfirst, hsecond]

end XbeeAssignment.XBee
