import XbeeAssignment.XBee.LossyLink
import XbeeAssignment.XBee.TempCallback

/-!
# From the pins of a node to the report of its temperature

`IoSample.reported` is what `get_temp_callback` makes of the samples of a node, in
terms of the samples (`getTempCallback_data`):

* with digital channels the first analog sample, and the upper byte of the digital ones;
* without them the second analog sample, with the upper byte of the first one for the
  digital ones;
* of a single analog channel alone nothing, for lack of data.

The samples of all channels fit into one read, so that the report of an exchange over
a lossy link is that of the samples at the node when the request arrived
(`sampling_over_link`).
-/

namespace XbeeAssignment.XBee

open ByteString StopAndWait

/-! ## The report of a sample -/

namespace IoSample

/-- What is reported for an analog sample. -/
def reportOf (p : IoSample) (digitalPin : UInt8) (sample : UInt16) :
    Except CallbackFault (Option Report) :=
  (toTemp2 sample).map fun logArgument =>
    some { digitalPin := digitalPin.toInt8
           analogPin := p.analogMask.toInt8
           adcRawVal := sample
           logArgument := logArgument }

/-- What is reported for the samples of a node. -/
def reported (p : IoSample) : Except CallbackFault (Option Report) :=
  if p.digitalMask ≠ 0 then
    match p.analog with
    | first :: _ => p.reportOf (highByte p.digital.toNat) first
    | [] => .ok none
  else
    match p.analog with
    | first :: second :: _ => p.reportOf (highByte first.toNat) second
    | _ => .ok none

theorem length_flatMap_sampleBytes (samples : List UInt16) :
    (samples.flatMap sampleBytes).length = 2 * samples.length := by
  induction samples with
  | nil => rfl
  | cons sample samples ih =>
      rw [List.flatMap_cons, List.length_append, ih, List.length_cons]
      show 2 + 2 * samples.length = 2 * (samples.length + 1)
      omega

/-- A mask has eight bits. -/
theorem length_enabledChannels_le (mask : UInt8) : (enabledChannels mask).length ≤ 8 :=
  calc (enabledChannels mask).length ≤ (List.range 8).length := List.length_filter_le ..
    _ = 8 := List.length_range

/-- The samples of all channels are 22 bytes. -/
theorem length_encode_le (p : IoSample) : p.encode.length ≤ 22 := by
  have hanalog : p.analog.length ≤ 8 := by
    rw [p.length_analog]
    exact length_enabledChannels_le _
  have hdigital : (if p.digitalMask = 0 then [] else sampleBytes p.digital).length ≤ 2 := by
    split
    · exact Nat.zero_le 2
    · exact le_rfl
  unfold encode
  simp only [List.length_append, length_flatMap_sampleBytes]
  have hmask : (sampleBytes p.digitalMask).length = 2 := rfl
  simp only [hmask, List.length_singleton]
  omega

/-- The callback on data of the layout of its own enumeration. -/
theorem getTempCallback_of_layout {frame : XBeeFrame} {p : IoSample} {digitalPin low : UInt8}
    {sample : UInt16} {rest : List UInt8}
    (hdata : frame.data = ([p.count] ++ sampleBytes p.digitalMask ++ [p.analogMask] ++
      [digitalPin, low] ++ (sampleBytes sample ++ rest)).map UInt8.toInt8) :
    getTempCallback frame = p.reportOf digitalPin sample := by
  have hcomplete : 8 ≤ frame.data.length := by
    rw [hdata]
    simp [sampleBytes]
  have hfield : UInt16.ofNat (sampleField frame.data) = sample := by
    rw [hdata, sampleField_of_take rfl, UInt16.ofNat_toNat]
  have hdigital : dataAt frame digiSamples = .ok digitalPin.toInt8 := by
    rw [dataAt, hdata]
    rfl
  have hanalog : dataAt frame XBee.analogMask = .ok p.analogMask.toInt8 := by
    rw [dataAt, hdata]
    rfl
  unfold getTempCallback
  rw [readAdcRawVal_eq hcomplete, hfield, hdigital, hanalog, reportOf]
  simp only [bind, Except.bind]
  cases toTemp2 sample <;> rfl

end IoSample

/-- **The report.**  What the callback reports of data that is a node's sample. -/
theorem getTempCallback_data {frame : XBeeFrame} {p : IoSample} (hdata : frame.data = p.data) :
    getTempCallback frame = p.reported := by
  obtain ⟨first, rest, hanalog⟩ := p.exists_analog_eq_cons
  by_cases hdigital : p.digitalMask = 0
  · cases rest with
    | nil =>
        have hshort := IoSample.length_data_of_single hdigital hanalog
        rw [getTempCallback, readAdcRawVal_of_incomplete (by rw [hdata]; omega), IoSample.reported,
          if_neg (not_not.mpr hdigital), hanalog]
        rfl
    | cons second rest =>
        -- the first sample is where the digital ones would be
        have hreported : p.reported = p.reportOf (highByte first.toNat) second := by
          rw [IoSample.reported, if_neg (not_not.mpr hdigital), hanalog]
        rw [hreported]
        refine @IoSample.getTempCallback_of_layout _ _ _ (lowByte first.toNat) _
          (rest.flatMap IoSample.sampleBytes) ?_
        rw [hdata, IoSample.data, IoSample.encode, if_pos hdigital, hanalog, List.flatMap_cons,
          List.flatMap_cons, List.append_nil]
        simp only [List.append_assoc]
        rfl
  · have hreported : p.reported = p.reportOf (highByte p.digital.toNat) first := by
      rw [IoSample.reported, if_pos hdigital, hanalog]
    rw [hreported]
    refine @IoSample.getTempCallback_of_layout _ _ _ (lowByte p.digital.toNat) _
      (rest.flatMap IoSample.sampleBytes) ?_
    rw [hdata, IoSample.data, IoSample.encode, if_neg hdigital, hanalog, List.flatMap_cons]
    rfl

/-! ## A sensor node -/

/-- A node that answers `request` with the samples it has, in any state, and never with an
error. -/
structure Samples {σ : Type*} (node : Node σ) (request : Request) (sample : σ → IoSample) :
    Prop where
  data : ∀ s, (node.answer s request).data = (sample s).encode
  status : ∀ s, (node.answer s request).status ≠ 0x01

/-- The node that has the samples in its state, which nothing changes. -/
def sensorNode : Node IoSample where
  execute p _ := p
  answer p request :=
    okResponse request.address SerialLine.sampleAnswer.network request.letters p.encode
  length_data p _ := (p.length_encode_le).trans (by decide)

theorem samples_sensorNode (request : Request) : Samples sensorNode request id :=
  { data := fun _ => rfl, status := fun _ => show (0x00 : UInt8) ≠ 0x01 by decide }

/-- **Sampling over a lossy link.**  The callback is called in the first round that loses neither
message, and reports the samples the node had when the request of that round arrived; it is not
called at all if every round loses one. -/
theorem sampling_over_link {σ : Type*} (node : Node σ) (sample : σ → IoSample) (sign : CharSign)
    (serialFd : ℤ) (hserial : serialFd ≠ -1) (retries : UInt32) (call : SendCall)
    (hbound : 15 + call.cmdParams.length ≤ 65535) (hsamples : Samples node call.request sample)
    (link : ℕ → Round) (s : σ) :
    ∃ frame outcomes, txFrame call.address call.cmd call.cmdParams = some frame ∧
      node.Serves sign frame link s outcomes ∧
      ((∃ k < attempts retries, link k = .delivered ∧ (∀ j < k, link j ≠ .delivered) ∧
          (exchangeThread serialFd retries call.address call.cmd call.cmdParams
              outcomes).calls.map getTempCallback =
            [(sample
              ((fun t => node.execute t call.request)^[Service.arrivals link k] s)).reported]) ∨
        ((∀ k < attempts retries, link k ≠ .delivered) ∧
          (exchangeThread serialFd retries call.address call.cmd call.cmdParams
            outcomes).calls = [])) := by
  obtain ⟨frame, hframe⟩ := exists_txFrame call.address call.cmdParams call.two_le
  obtain ⟨outcomes, hserves⟩ := node.exists_serves sign frame link s
  have hsucceeds : ∀ k, node.Succeeds call.request link s k ↔ link k = .delivered := fun k =>
    and_iff_left (hsamples.status _)
  refine ⟨frame, outcomes, hframe, hserves, ?_⟩
  rcases exchangeThread_cases node hserial retries hbound hframe hserves with
    ⟨k, hk, hdelivered, hbefore, heq⟩ | ⟨hnone, heq⟩
  · simp only [hsucceeds] at hdelivered hbefore
    refine .inl ⟨k, hk, hdelivered, hbefore, ?_⟩
    have hstate : node.stateAt call.request link s k =
        (fun t => node.execute t call.request)^[Service.arrivals link k] s :=
      Service.stateAt_eq_iterate k
    have hdata : (node.answer (node.stateAt call.request link s k) call.request).frame.data =
        (sample (node.stateAt call.request link s k)).data :=
      congrArg (List.map UInt8.toInt8) (hsamples.data _)
    rw [heq, List.map_singleton, getTempCallback_data hdata, hstate]
  · simp only [hsucceeds] at hnone
    exact .inr ⟨hnone, by rw [heq]⟩

/-- The channels DIO1 and AD2 at 0 and `0x021F`, over a link that loses the first answer. -/
theorem sampling_over_link_sensor :
    ∃ frame outcomes, txFrame SerialLine.sampleRequest.address SerialLine.sampleRequest.cmd
        SerialLine.sampleRequest.cmdParams = some frame ∧
      sensorNode.Serves .unsigned frame firstAnswerLost
        { count := 1, digitalMask := 0x0002, analogMask := 0x04, digital := 0, analog := [0x021F],
          analogMask_ne := by decide, length_analog := by decide } outcomes ∧
      (exchangeThread 3 20 SerialLine.sampleRequest.address SerialLine.sampleRequest.cmd
        SerialLine.sampleRequest.cmdParams outcomes).calls.map getTempCallback =
          [.ok (some { digitalPin := 0, analogPin := 4, adcRawVal := 0x021F,
                       logArgument := 8839 })] := by
  obtain ⟨frame, outcomes, hframe, hserves, hcases⟩ :=
    sampling_over_link sensorNode id .unsigned 3 (by decide) 20 SerialLine.sampleRequest
      (by decide) (samples_sensorNode _) firstAnswerLost
      { count := 1, digitalMask := 0x0002, analogMask := 0x04, digital := 0, analog := [0x021F],
        analogMask_ne := by decide, length_analog := by decide }
  refine ⟨frame, outcomes, hframe, hserves, ?_⟩
  rcases hcases with ⟨k, -, hdelivered, hbefore, hreports⟩ | ⟨hnone, -⟩
  · obtain rfl : k = 1 := by
      have hpos : k ≠ 0 := by
        rintro rfl
        cases hdelivered
      by_contra hne
      exact hbefore 1 (by omega) rfl
    exact hreports
  · exact absurd rfl (hnone 1 (by decide))

end XbeeAssignment.XBee
