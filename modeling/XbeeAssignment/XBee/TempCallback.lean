import XbeeAssignment.XBee.AnswerMatching
import XbeeAssignment.XBee.Delivery

/-!
# `get_temp_callback`

The callback of the `IS` requests reads one 16-bit sample out of the data of the
answer, at a fixed place, and turns it into a temperature by the formula of
`to_temp2`.  What it prints is computed in floating point; only the integers are
followed here, down to the argument of `log`.

* The data of an `IS` answer is laid out by two masks (`IoSample.encode`).  Without
  digital channels there are no digital samples, and the analog samples begin two
  bytes earlier than the enumeration of the callback has it.
* The sample is divided by, whatever it is.

`at` throws on an index out of range, and an `int` division by zero is undefined;
both are a `CallbackFault`.
-/

namespace XbeeAssignment.XBee

open ByteString

/-! ## The callback -/

inductive CallbackFault
  | outOfRange
  | divisionByZero
  deriving DecidableEq, Repr

/-- `NO_SAMPLES`. -/
def noSamples : ℕ := 0

/-- `DIG_MASK`. -/
def digMask : ℕ := noSamples + 1

/-- `ANALOG_MASK`. -/
def analogMask : ℕ := digMask + 2

/-- `DIGI_SAMPLES`. -/
def digiSamples : ℕ := analogMask + 1

/-- `ANALOG_SAMPLE`. -/
def analogSample : ℕ := digiSamples + 2

/-- `rx_frame.data.at(index)`. -/
def dataAt (frame : XBeeFrame) (index : ℕ) : Except CallbackFault Int8 :=
  match frame.data[index]? with
  | some byte => .ok byte
  | none => .error .outOfRange

/-- `(uint16_t) (0x00FF & low | (high << 8))`, both promoted to `int`. -/
def collapse (low high : Int8) : UInt16 :=
  UInt16.ofBitVec
    ((0x00FF#32 &&& low.toBitVec.signExtend 32 ||| high.toBitVec.signExtend 32 <<< 8).setWidth 16)

/-- What the callback does first: nothing for incomplete data, and otherwise `adc_raw_val`. -/
def readAdcRawVal (frame : XBeeFrame) : Except CallbackFault (Option UInt16) :=
  if frame.data.length < 8 then .ok none
  else do
    let low ← dataAt frame (analogSample + 1)
    let high ← dataAt frame analogSample
    return some (collapse low high)

/-- The argument of `log` in `to_temp2`: `(10230000 / adc_raw_val) - 10000`. -/
def toTemp2 (adcRawVal : UInt16) : Except CallbackFault ℤ :=
  if adcRawVal = 0 then .error .divisionByZero
  else .ok ((10230000 : ℤ).tdiv adcRawVal.toNat - 10000)

/-- The integers the callback prints or computes with. -/
structure Report where
  digitalPin : Int8
  analogPin : Int8
  adcRawVal : UInt16
  logArgument : ℤ
  deriving DecidableEq, Repr

/-- `get_temp_callback`; `none` if the data is reported as incomplete. -/
def getTempCallback (frame : XBeeFrame) : Except CallbackFault (Option Report) := do
  match ← readAdcRawVal frame with
  | none => return none
  | some adcRawVal =>
      let logArgument ← toTemp2 adcRawVal
      let digitalPin ← dataAt frame digiSamples
      let analogPin ← dataAt frame analogMask
      return some { digitalPin, analogPin, adcRawVal, logArgument }

/-! ## The sample that is read -/

/-- The signs of the bytes do not reach the 16 bits. -/
theorem toNat_collapse (low high : Int8) :
    (collapse low high).toNat = beValue [high.toUInt8, low.toUInt8] := by
  have hlow : (0x00FF#32 &&& low.toBitVec.signExtend 32).setWidth 16 =
      low.toUInt8.toBitVec.setWidth 16 := by
    apply BitVec.eq_of_getLsbD_eq
    intro i hi
    have hmask : (0x00FF#32).getLsbD i = decide (i < 8) := by
      interval_cases i <;> rfl
    have hwide : i < 32 := by omega
    simp only [BitVec.getLsbD_setWidth, BitVec.getLsbD_and, hmask, BitVec.getLsbD_signExtend]
    by_cases hbyte : i < 8
    · simp [hi, hbyte, hwide]
    · have hout : low.toBitVec.getLsbD i = false :=
        BitVec.getLsbD_of_ge _ _ (not_lt.mp hbyte)
      simp [hbyte, hout]
  have hhigh : (high.toBitVec.signExtend 32 <<< 8).setWidth 16 =
      high.toUInt8.toBitVec.setWidth 16 <<< 8 :=
    CharSign.setWidth_toInt_shiftLeft .signed high.toUInt8
  calc (collapse low high).toNat
      = ((0x00FF#32 &&& low.toBitVec.signExtend 32).setWidth 16 |||
          (high.toBitVec.signExtend 32 <<< 8).setWidth 16).toNat := by
        rw [collapse, UInt16.toNat_ofBitVec, BitVec.setWidth_or]
    _ = (low.toUInt8.toBitVec.setWidth 16 ||| high.toUInt8.toBitVec.setWidth 16 <<< 8).toNat := by
        rw [hlow, hhigh]
    _ = beValue [high.toUInt8, low.toUInt8] := toNat_joinBytes _ _

theorem dataAt_eq_ok {frame : XBeeFrame} {index : ℕ} (hindex : index < frame.data.length) :
    dataAt frame index = .ok frame.data[index] := by
  rw [dataAt, List.getElem?_eq_getElem hindex]

/-- The number in bytes 6 and 7 of the data, the sample the callback computes with. -/
def sampleField (data : List Int8) : ℕ :=
  beValue [(data.getD 6 0).toUInt8, (data.getD 7 0).toUInt8]

/-- Eight bytes are enough for every access before the division. -/
theorem readAdcRawVal_eq {frame : XBeeFrame} (hcomplete : 8 ≤ frame.data.length) :
    readAdcRawVal frame = .ok (some (UInt16.ofNat (sampleField frame.data))) := by
  have hlow : 7 < frame.data.length := hcomplete
  have hhigh : 6 < frame.data.length := Nat.lt_of_succ_lt hlow
  have hvalue : collapse frame.data[7] frame.data[6] = UInt16.ofNat (sampleField frame.data) := by
    rw [← UInt16.ofNat_toNat (x := collapse _ _), toNat_collapse, sampleField,
      List.getD_eq_getElem _ _ hlow, List.getD_eq_getElem _ _ hhigh]
  rw [readAdcRawVal, if_neg (not_lt.mpr hcomplete),
    dataAt_eq_ok (show analogSample + 1 < _ from hlow),
    dataAt_eq_ok (show analogSample < _ from hhigh), ← hvalue]
  rfl

theorem readAdcRawVal_of_incomplete {frame : XBeeFrame} (hincomplete : frame.data.length < 8) :
    readAdcRawVal frame = .ok none := by
  rw [readAdcRawVal, if_pos hincomplete]

theorem sampleField_lt (data : List Int8) : sampleField data < 65536 := by
  have hhigh := (data.getD 6 0).toUInt8.toNat_lt
  have hlow := (data.getD 7 0).toUInt8.toNat_lt
  rw [sampleField, beValue_pair]
  omega

theorem toNat_sampleField (data : List Int8) :
    (UInt16.ofNat (sampleField data)).toNat = sampleField data := by
  rw [UInt16.toNat_ofNat', Nat.mod_eq_of_lt (sampleField_lt data)]

/-! ## The first analog channel -/

/-- The channels of a mask. -/
def enabledChannels (mask : UInt8) : List ℕ :=
  (List.range 8).filter mask.toNat.testBit

theorem enabledChannels_ne_nil {mask : UInt8} (hmask : mask ≠ 0) : enabledChannels mask ≠ [] := by
  have hne : mask.toNat ≠ 0 := fun hzero => hmask (UInt8.toNat_inj.mp hzero)
  obtain ⟨channel, hchannel⟩ := Nat.exists_testBit_of_ne_zero hne
  have hlt : channel < 8 := by
    by_contra hge
    have hbound : mask.toNat < 2 ^ channel :=
      lt_of_lt_of_le mask.toNat_lt (Nat.pow_le_pow_right (by omega) (not_lt.mp hge))
    rw [Nat.testBit_lt_two_pow hbound] at hchannel
    cases hchannel
  apply List.ne_nil_of_mem
  exact List.mem_filter.mpr ⟨List.mem_range.mpr hlt, hchannel⟩

/-- The data of an `IS` answer: the sample of every channel the masks enable. -/
structure IoSample where
  count : UInt8
  digitalMask : UInt16
  analogMask : UInt8
  digital : UInt16
  analog : List UInt16
  analogMask_ne : analogMask ≠ 0
  length_analog : analog.length = (enabledChannels analogMask).length

namespace IoSample

/-- The bytes of one sample. -/
def sampleBytes (sample : UInt16) : List UInt8 :=
  [highByte sample.toNat, lowByte sample.toNat]

def encode (p : IoSample) : List UInt8 :=
  [p.count] ++ sampleBytes p.digitalMask ++ [p.analogMask] ++
    (if p.digitalMask = 0 then [] else sampleBytes p.digital) ++ p.analog.flatMap sampleBytes

/-- `p` as `receive` stores it. -/
def data (p : IoSample) : List Int8 := p.encode.map UInt8.toInt8

/-- The sample of the first channel, and those of the others. -/
theorem exists_analog_eq_cons (p : IoSample) : ∃ first rest, p.analog = first :: rest := by
  apply List.exists_cons_of_ne_nil
  intro hnil
  have hlength := p.length_analog
  rw [hnil] at hlength
  exact enabledChannels_ne_nil p.analogMask_ne (List.length_eq_zero_iff.mp hlength.symm)

theorem beValue_sampleBytes (sample : UInt16) : beValue (sampleBytes sample) = sample.toNat := by
  rw [sampleBytes, beValue_highByte_lowByte, Nat.mod_eq_of_lt sample.toNat_lt]

/-- Two bytes at index 6 that are those of a sample. -/
theorem sampleField_of_take {bytes rest : List UInt8} {sample : UInt16}
    (hlength : bytes.length = 6) :
    sampleField ((bytes ++ (sampleBytes sample ++ rest)).map UInt8.toInt8) = sample.toNat := by
  match bytes, hlength with
  | [_, _, _, _, _, _], _ => exact beValue_sampleBytes sample

/-- With digital channels the first analog sample lies where the callback reads. -/
theorem sampleField_of_digital {p : IoSample} (hdigital : p.digitalMask ≠ 0) {first : UInt16}
    {rest : List UInt16} (hanalog : p.analog = first :: rest) :
    8 ≤ p.data.length ∧ sampleField p.data = first.toNat := by
  have hencode : p.encode = ([p.count] ++ sampleBytes p.digitalMask ++ [p.analogMask] ++
      sampleBytes p.digital) ++ (sampleBytes first ++ rest.flatMap sampleBytes) := by
    rw [encode, if_neg hdigital, hanalog, List.flatMap_cons]
  rw [data, hencode]
  refine ⟨?_, sampleField_of_take rfl⟩
  simp [sampleBytes]

/-- Without digital channels the second one does. -/
theorem sampleField_of_analog {p : IoSample} (hdigital : p.digitalMask = 0) {first second : UInt16}
    {rest : List UInt16} (hanalog : p.analog = first :: second :: rest) :
    8 ≤ p.data.length ∧ sampleField p.data = second.toNat := by
  have hencode : p.encode = ([p.count] ++ sampleBytes p.digitalMask ++ [p.analogMask] ++
      sampleBytes first) ++ (sampleBytes second ++ rest.flatMap sampleBytes) := by
    rw [encode, if_pos hdigital, hanalog, List.flatMap_cons, List.flatMap_cons, List.append_nil]
    simp only [List.append_assoc]
  rw [data, hencode]
  refine ⟨?_, sampleField_of_take rfl⟩
  simp [sampleBytes]

/-- The data of a single analog channel is reported as incomplete. -/
theorem length_data_of_single {p : IoSample} (hdigital : p.digitalMask = 0) {first : UInt16}
    (hanalog : p.analog = [first]) : p.data.length = 6 := by
  rw [data, encode, if_pos hdigital, hanalog]
  rfl

end IoSample

/-- `adc_raw_val` is the sample of the first analog channel. -/
def ReadsFirstChannel (p : IoSample) : Prop :=
  ∀ frame : XBeeFrame, frame.data = p.data →
    ∃ first, p.analog.head? = some first ∧ readAdcRawVal frame = .ok (some first)

/-- What the callback reads out of complete data. -/
theorem readAdcRawVal_eq_iff {frame : XBeeFrame} (hcomplete : 8 ≤ frame.data.length)
    {sample : UInt16} :
    readAdcRawVal frame = .ok (some sample) ↔ sampleField frame.data = sample.toNat := by
  have hvalue : sampleField frame.data = sample.toNat ↔
      UInt16.ofNat (sampleField frame.data) = sample := by
    rw [← UInt16.toNat_inj, toNat_sampleField]
  rw [readAdcRawVal_eq hcomplete, hvalue, Except.ok.injEq, Option.some.injEq]

/-- **The first channel.**  The callback reads the sample of the first analog channel exactly if
there are digital samples before it, or the second channel has the same sample. -/
theorem reads_first_channel_iff (p : IoSample) :
    ReadsFirstChannel p ↔ p.digitalMask ≠ 0 ∨ p.analog[1]? = p.analog[0]? := by
  have hsame : ∀ data : List Int8, ∃ frame : XBeeFrame, frame.data = data := fun data =>
    ⟨{ length := 0, address := 0, data := data, status := 0, command := [] }, rfl⟩
  obtain ⟨first, rest, hanalog⟩ := p.exists_analog_eq_cons
  by_cases hdigital : p.digitalMask = 0
  · cases rest with
    | nil =>
        -- six bytes only
        have hshort := IoSample.length_data_of_single hdigital hanalog
        refine iff_of_false ?_ (by simp [hdigital, hanalog])
        intro hreads
        obtain ⟨frame, hframe⟩ := hsame p.data
        obtain ⟨_, -, hread⟩ := hreads frame hframe
        rw [readAdcRawVal_of_incomplete (by rw [hframe]; omega)] at hread
        cases hread
    | cons second rest =>
        obtain ⟨hcomplete, hfield⟩ := IoSample.sampleField_of_analog hdigital hanalog
        have hread : ∀ frame : XBeeFrame, frame.data = p.data →
            (readAdcRawVal frame = .ok (some first) ↔ second = first) := by
          intro frame hframe
          rw [readAdcRawVal_eq_iff (by rw [hframe]; exact hcomplete), hframe, hfield,
            UInt16.toNat_inj]
        have hright : (p.digitalMask ≠ 0 ∨ p.analog[1]? = p.analog[0]?) ↔ second = first := by
          simp [hdigital, hanalog]
        rw [hright]
        constructor
        · intro hreads
          obtain ⟨frame, hframe⟩ := hsame p.data
          obtain ⟨sample, hhead, hsample⟩ := hreads frame hframe
          obtain rfl : first = sample := by simpa [hanalog] using hhead
          exact (hread frame hframe).mp hsample
        · intro heq frame hframe
          exact ⟨first, by rw [hanalog]; rfl, (hread frame hframe).mpr heq⟩
  · obtain ⟨hcomplete, hfield⟩ := IoSample.sampleField_of_digital hdigital hanalog
    refine iff_of_true ?_ (.inl hdigital)
    intro frame hframe
    refine ⟨first, by rw [hanalog]; rfl, ?_⟩
    rw [readAdcRawVal_eq_iff (by rw [hframe]; exact hcomplete), hframe, hfield]

/-- The channels AD1 and AD2 without any digital one, at `0x0102` and `0x0203`. -/
def twoAnalog : IoSample :=
  { count := 1, digitalMask := 0x0000, analogMask := 0x06, digital := 0,
    analog := [0x0102, 0x0203], analogMask_ne := by decide, length_analog := by decide }

/-- The callback reads `0x0203` of them. -/
theorem not_reads_first_channel_analog : ¬ ReadsFirstChannel twoAnalog := by
  rw [reads_first_channel_iff]
  decide

/-! ## The arithmetic -/

/-- The callback throws and divides by zero nowhere, and takes logarithms of positive numbers
only. -/
def ArithmeticSafe (frame : XBeeFrame) : Prop :=
  ∃ result, getTempCallback frame = .ok result ∧
    ∀ report, result = some report → 0 < report.logArgument

/-- The callback on complete data fails only in the division. -/
theorem getTempCallback_eq {frame : XBeeFrame} (hcomplete : 8 ≤ frame.data.length) :
    ∃ digitalPin analogPin, getTempCallback frame =
      (toTemp2 (UInt16.ofNat (sampleField frame.data))).map fun logArgument =>
        some { digitalPin := digitalPin
               analogPin := analogPin
               adcRawVal := UInt16.ofNat (sampleField frame.data)
               logArgument := logArgument } := by
  have hdigital : digiSamples < frame.data.length := lt_of_lt_of_le (by decide) hcomplete
  have hanalog : analogMask < frame.data.length := lt_of_lt_of_le (by decide) hcomplete
  refine ⟨frame.data[digiSamples], frame.data[analogMask], ?_⟩
  unfold getTempCallback
  rw [readAdcRawVal_eq hcomplete, dataAt_eq_ok hdigital, dataAt_eq_ok hanalog]
  simp only [bind, Except.bind]
  cases toTemp2 (UInt16.ofNat (sampleField frame.data)) <;> rfl

/-- A quotient of more than 10000 has a divisor below 1023. -/
theorem logArgument_pos_iff {sample : ℕ} (hpos : 0 < sample) :
    0 < (10230000 : ℤ).tdiv sample - 10000 ↔ sample ≤ 1022 := by
  have hdiv : (10230000 : ℤ).tdiv sample = (10230000 / sample : ℕ) := by
    rw [Int.tdiv_eq_ediv_of_nonneg (by decide)]
    rfl
  have hquotient : 10001 ≤ 10230000 / sample ↔ 10001 * sample ≤ 10230000 :=
    Nat.le_div_iff_mul_le hpos
  rw [hdiv]
  omega

/-- **The callback's arithmetic.**  It is safe exactly if the data is too short for it or the
number in bytes 6 and 7 is from 1 to 1022. -/
theorem arithmetic_safe_iff (frame : XBeeFrame) :
    ArithmeticSafe frame ↔
      frame.data.length < 8 ∨ (1 ≤ sampleField frame.data ∧ sampleField frame.data ≤ 1022) := by
  by_cases hshort : frame.data.length < 8
  · refine iff_of_true ⟨none, ?_, fun report hreport => ?_⟩ (.inl hshort)
    · rw [getTempCallback, readAdcRawVal_of_incomplete hshort]
      rfl
    · cases hreport
  obtain ⟨digitalPin, analogPin, heq⟩ := getTempCallback_eq (not_lt.mp hshort)
  unfold ArithmeticSafe
  rw [heq, or_iff_right hshort]
  by_cases hzero : sampleField frame.data = 0
  · -- the division by zero
    refine iff_of_false ?_ (by omega)
    rw [hzero]
    rintro ⟨result, hresult, -⟩
    cases hresult
  · have hne : UInt16.ofNat (sampleField frame.data) ≠ 0 := by
      rw [ne_eq, ← UInt16.toNat_inj, toNat_sampleField]
      exact hzero
    have hpos : 0 < sampleField frame.data := Nat.pos_of_ne_zero hzero
    rw [toTemp2, if_neg hne, toNat_sampleField]
    constructor
    · rintro ⟨result, hresult, hlog⟩
      cases hresult
      exact ⟨hpos, (logArgument_pos_iff hpos).mp (hlog _ rfl)⟩
    · rintro ⟨-, hhigh⟩
      refine ⟨_, rfl, ?_⟩
      rintro report ⟨⟩
      exact (logArgument_pos_iff hpos).mpr hhigh

/-- The answer of the end node to `IS` with AD2 at 0 V and a digital channel enabled. -/
def groundedResponse : Response :=
  { SerialLine.sampleAnswer with data := [0x01, 0x00, 0x01, 0x04, 0x00, 0x01, 0x00, 0x00] }

/-- It reaches the callback, which divides by zero. -/
theorem not_arithmetic_safe_grounded :
    Delivers .unsigned groundedResponse groundedResponse.frame ∧
      ¬ ArithmeticSafe groundedResponse.frame := by
  refine ⟨(delivers_iff .unsigned (by decide) (by decide) _).mpr rfl, ?_⟩
  rw [arithmetic_safe_iff]
  decide

end XbeeAssignment.XBee
