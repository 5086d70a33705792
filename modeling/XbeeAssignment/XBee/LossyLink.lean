import XbeeAssignment.Lib.StopAndWait
import XbeeAssignment.XBee.AnswerMatching
import XbeeAssignment.XBee.Delivery
import XbeeAssignment.XBee.RequestFormat
import XbeeAssignment.XBee.RetryLoop

/-!
# An exchange over a link that loses messages

The request of an exchange reaches the remote node as the frame that was written,
and its answer is what `receive` reads; either may be lost on the way.  Between the
two ends `exchange_thread` is the client of a stop-and-wait exchange
(`exchangeLoop_eq_exchange`):

* a round whose request or answer is lost reads nothing, and a buffer of zeros fails
  the checksum test;
* an answer of status `0x01` fails the status test, and the request is sent again.

All frames of an exchange have the frame id `0x01`, so that the node cannot tell a
retransmission from a second request, and executes the command again.  The callback
is called at most once, but the command is executed as often as it arrived.
-/

namespace XbeeAssignment.XBee

open StopAndWait

/-! ## The two ends -/

/-- A remote node: what a request does to it and what it answers, in any state. -/
structure Node (σ : Type*) where
  execute : σ → Request → σ
  answer : σ → Request → Response
  length_data : ∀ s request, (answer s request).data.length ≤ 109

/-- What `send` was called with, as the node should see it. -/
def SendCall.request (call : SendCall) : Request where
  address := call.address
  command := (call.cmd.get ⟨0, Nat.lt_of_lt_of_le Nat.zero_lt_two call.two_le⟩,
    call.cmd.get ⟨1, Nat.lt_of_succ_le call.two_le⟩)
  params := call.cmdParams

namespace Node

variable {σ : Type*} (node : Node σ)

/-- The service of one request; an answer of status `0x01` is not taken. -/
def service (request : Request) : Service σ Response where
  serve s := node.execute s request
  answer s := node.answer s request
  accepts r := r.status ≠ 0x01

/-- The node's state before round `k`. -/
def stateAt (request : Request) (link : ℕ → Round) (s : σ) (k : ℕ) : σ :=
  (node.service request).stateAt link s k

/-- What is read in a round that the node begins in state `s`. -/
def read (request : Request) (s : σ) : Round → ReadResult
  | .requestLost | .answerLost => .bytes [] (by decide)
  | .delivered =>
      .bytes (node.answer s request).encode (Response.length_encode_le (node.length_data ..))

/-- The `k`-th call of `receive` exits as `outcomes k`, when the node gets `frame`. -/
def Serves (sign : CharSign) (frame : List UInt8) (link : ℕ → Round) (s : σ)
    (outcomes : ℕ → ReceiveExit) : Prop :=
  ∀ k, receive sign (node.read (decodeRequest frame)
    (node.stateAt (decodeRequest frame) link s k) (link k)) = some (outcomes k)

/-- Round `k` ends with an answer that is not an error. -/
def Succeeds (request : Request) (link : ℕ → Round) (s : σ) (k : ℕ) : Prop :=
  link k = .delivered ∧ (node.answer (node.stateAt request link s k) request).status ≠ 0x01

/-! ## One round -/

theorem received_eq_some_iff {request : Request} {link : ℕ → Round} {s : σ} {k : ℕ}
    {r : Response} :
    (node.service request).received (node.stateAt request link s k) (link k) = some r ↔
      node.Succeeds request link s k ∧ r = node.answer (node.stateAt request link s k) request := by
  simp only [Service.received, Succeeds, service, decide_eq_true_eq, Option.ite_none_right_eq_some,
    Option.some.injEq, eq_comm (a := r)]

theorem received_eq_none_iff {request : Request} {link : ℕ → Round} {s : σ} {k : ℕ} :
    (node.service request).received (node.stateAt request link s k) (link k) = none ↔
      ¬ node.Succeeds request link s k := by
  rw [Option.eq_none_iff_forall_ne_some]
  simp [received_eq_some_iff]

/-- A read of nothing is rejected. -/
theorem receive_nil (sign : CharSign) (fits : ([] : List UInt8).length ≤ 128) :
    receive sign (.bytes [] fits) = some .checksumError := by
  have hsum : (rxSum sign (rxBuf [] fits)).setWidth 8 ≠ 0xFF#8 := by
    rw [ne_eq, rxSum_eq_iff, byteSum_drop_rxBuf]
    decide
  have hstatus : statusByte (rxBuf [] fits) ≠ 0x01 := by
    rw [statusByte, getElem_rxBuf]
    decide
  rw [receive, parseBuffer, if_neg hstatus, if_pos hsum]

theorem receive_encode_error (sign : CharSign) {r : Response} (hstatus : r.status = 0x01)
    (fits : r.encode.length ≤ 128) : receive sign (.bytes r.encode fits) = some .statusError := by
  have hbyte : statusByte (rxBuf r.encode fits) = 0x01 := by
    rw [← hstatus, statusByte, getElem_rxBuf, Response.encode_eq]
    rfl
  rw [receive, parseBuffer, if_pos hbyte]

/-- `receive` takes the answers the service's client takes. -/
theorem exists_receive_read (sign : CharSign) (request : Request) (s : σ) (round : Round) :
    ∃ exit, receive sign (node.read request s round) = some exit ∧
      exit.calls = ((node.service request).received s round).toList.map Response.frame := by
  cases round with
  | requestLost | answerLost => exact ⟨.checksumError, receive_nil sign _, rfl⟩
  | delivered =>
      by_cases hstatus : (node.answer s request).status = 0x01
      · refine ⟨.statusError, receive_encode_error sign hstatus _, ?_⟩
        simp [Service.received, service, hstatus, ReceiveExit.calls]
      · refine ⟨_, receive_encode sign hstatus _, ?_⟩
        simp [Service.received, service, hstatus, ReceiveExit.calls, Response.frame]

theorem exists_serves (sign : CharSign) (frame : List UInt8) (link : ℕ → Round) (s : σ) :
    ∃ outcomes, node.Serves sign frame link s outcomes := by
  have hexits := fun k => node.exists_receive_read sign (decodeRequest frame)
    (node.stateAt (decodeRequest frame) link s k) (link k)
  choose outcomes hreceive _ using hexits
  exact ⟨outcomes, hreceive⟩

variable {node}

theorem Serves.calls {sign : CharSign} {frame : List UInt8} {link : ℕ → Round} {s : σ}
    {outcomes : ℕ → ReceiveExit} (h : node.Serves sign frame link s outcomes) (k : ℕ) :
    (outcomes k).calls = ((node.service (decodeRequest frame)).received
      (node.stateAt (decodeRequest frame) link s k) (link k)).toList.map Response.frame := by
  obtain ⟨exit, hexit, hcalls⟩ := node.exists_receive_read sign (decodeRequest frame)
    (node.stateAt (decodeRequest frame) link s k) (link k)
  obtain rfl := Option.some.inj ((h k).symm.trans hexit)
  exact hcalls

end Node

/-! ## The loop is the client -/

/-- `receive` returns true exactly if it has an answer to call the callback with. -/
theorem returned_eq_isSome {exit : ReceiveExit} {answer : Option Response}
    (hcalls : exit.calls = answer.toList.map Response.frame) : exit.returned = answer.isSome := by
  cases answer with
  | none =>
      by_contra hne
      exact (exit.calls_ne_nil_iff.mpr (by simpa using hne)) hcalls
  | some r =>
      rw [Option.isSome_some, ← exit.calls_ne_nil_iff, hcalls]
      simp

/-- The loop writes a frame a round and calls the callback with the answer that is taken, if its
calls of `receive` take the answers the client takes. -/
theorem exchangeLoop_eq_exchange {σ : Type*} (service : Service σ Response) (frame : List UInt8)
    (retries : UInt32) (outcomes : ℕ → ReceiveExit) (link : ℕ → Round) (s : σ)
    (hcalls : ∀ k, (outcomes k).calls =
      (service.received (service.stateAt link s k) (link k)).toList.map Response.frame) :
    exchangeLoop frame retries outcomes =
      { writes := List.replicate (service.exchange (attempts retries) link s).rounds frame
        calls := (service.exchange (attempts retries) link s).taken.toList.map
          Response.frame } := by
  induction retries, outcomes using exchangeLoop.induct frame generalizing link s with
  | case1 retries outcomes h ih =>
      -- the first round's answer is not taken
      have hfirst : (outcomes 0).calls =
          (service.received s (link 0)).toList.map Response.frame := hcalls 0
      have hnone : service.received s (link 0) = none := by
        have hreturned := returned_eq_isSome hfirst
        rw [eq_false_of_nextRetries_pos h] at hreturned
        simpa using hreturned.symm
      have hrest := ih (fun k => link (k + 1)) (service.advance s (link 0)) fun k => by
        rw [hcalls (k + 1), Service.stateAt_succ]
      have hnil : (outcomes 0).calls = [] := by rw [hfirst, hnone]; rfl
      rw [exchangeLoop, dif_pos h, hrest, ← attempts_nextRetries h, Service.exchange, hnone]
      simp only [hnil, List.nil_append, List.replicate_succ]
  | case2 retries outcomes h =>
      obtain ⟨n, hn⟩ := Nat.exists_eq_add_of_le' (one_le_attempts retries)
      have hfirst : (outcomes 0).calls =
          (service.received s (link 0)).toList.map Response.frame := hcalls 0
      rw [exchangeLoop, dif_neg h, hn, Service.exchange]
      cases hreceived : service.received s (link 0) with
      | some r => simp [hfirst, hreceived]
      | none =>
          -- it was the last round allowed
          have hfailed : (outcomes 0).returned = false := by
            rw [returned_eq_isSome hfirst, hreceived]
            rfl
          obtain rfl : n = 0 := by
            have hone := attempts_eq_one h hfailed
            omega
          simp [hfirst, hreceived, Service.exchange]

/-! ## The whole exchange -/

section

variable {call : SendCall} {frame : List UInt8}

/-- The node gets the request as it was sent. -/
theorem SendCall.decodeRequest_eq (hbound : 15 + call.cmdParams.length ≤ 65535)
    (hframe : txFrame call.address call.cmd call.cmdParams = some frame) :
    decodeRequest frame = call.request :=
  decodeRequest_txFrame call.two_le hframe hbound

theorem exchangeThread_toLoopTrace {serialFd : ℤ} (hserial : serialFd ≠ -1) (retries : UInt32)
    (outcomes : ℕ → ReceiveExit)
    (hframe : txFrame call.address call.cmd call.cmdParams = some frame) :
    (exchangeThread serialFd retries call.address call.cmd call.cmdParams outcomes).toLoopTrace =
      exchangeLoop frame retries outcomes := by
  rw [exchangeThread, hframe]
  simp only [if_neg hserial]

end

variable {σ : Type*} (node : Node σ)

/-- What the thread does over the link, in terms of the rounds. -/
theorem exchangeThread_cases {sign : CharSign} {serialFd : ℤ} (hserial : serialFd ≠ -1)
    (retries : UInt32) {call : SendCall} (hbound : 15 + call.cmdParams.length ≤ 65535)
    {frame : List UInt8} (hframe : txFrame call.address call.cmd call.cmdParams = some frame)
    {link : ℕ → Round} {s : σ} {outcomes : ℕ → ReceiveExit}
    (hserves : node.Serves sign frame link s outcomes) :
    (∃ k < attempts retries, node.Succeeds call.request link s k ∧
        (∀ j < k, ¬ node.Succeeds call.request link s j) ∧
        (exchangeThread serialFd retries call.address call.cmd call.cmdParams
            outcomes).toLoopTrace =
          { writes := List.replicate (k + 1) frame
            calls := [(node.answer (node.stateAt call.request link s k) call.request).frame] }) ∨
      ((∀ k < attempts retries, ¬ node.Succeeds call.request link s k) ∧
        (exchangeThread serialFd retries call.address call.cmd call.cmdParams
            outcomes).toLoopTrace =
          { writes := List.replicate (attempts retries) frame, calls := [] }) := by
  have hcalls := hserves.calls
  rw [SendCall.decodeRequest_eq hbound hframe] at hcalls
  rw [exchangeThread_toLoopTrace hserial retries outcomes hframe,
    exchangeLoop_eq_exchange (node.service call.request) frame retries outcomes link s hcalls]
  rcases (node.service call.request).exchange_cases (attempts retries) link s with
    ⟨k, r, hk, hbefore, hr, heq⟩ | ⟨hnone, heq⟩
  · obtain ⟨hsucceeds, rfl⟩ := node.received_eq_some_iff.mp hr
    refine .inl ⟨k, hk, hsucceeds, fun j hj => node.received_eq_none_iff.mp (hbefore j hj), ?_⟩
    rw [heq]
    rfl
  · refine .inr ⟨fun k hk => node.received_eq_none_iff.mp (hnone k hk), ?_⟩
    rw [heq]
    rfl

/-- **An exchange over a lossy link.**  The thread writes its frame up to and including the first
round that succeeds, and calls the callback once, with the node's answer in that round; without
such a round it writes the frame in every round allowed and calls nothing.  The node has executed
the request once for every time it arrived. -/
theorem exchange_over_link (sign : CharSign) (serialFd : ℤ) (hserial : serialFd ≠ -1)
    (retries : UInt32) (call : SendCall) (hbound : 15 + call.cmdParams.length ≤ 65535)
    (link : ℕ → Round) (s : σ) :
    (∀ k, node.stateAt call.request link s k =
      (fun t => node.execute t call.request)^[Service.arrivals link k] s) ∧
    ∃ frame outcomes, txFrame call.address call.cmd call.cmdParams = some frame ∧
      node.Serves sign frame link s outcomes ∧
      ((∃ k < attempts retries, node.Succeeds call.request link s k ∧
          (∀ j < k, ¬ node.Succeeds call.request link s j) ∧
          (exchangeThread serialFd retries call.address call.cmd call.cmdParams
            outcomes).toLoopTrace =
            { writes := List.replicate (k + 1) frame
              calls := [(node.answer (node.stateAt call.request link s k) call.request).frame] }) ∨
        ((∀ k < attempts retries, ¬ node.Succeeds call.request link s k) ∧
          (exchangeThread serialFd retries call.address call.cmd call.cmdParams
            outcomes).toLoopTrace =
            { writes := List.replicate (attempts retries) frame, calls := [] })) := by
  obtain ⟨frame, hframe⟩ := exists_txFrame call.address call.cmdParams call.two_le
  obtain ⟨outcomes, hserves⟩ := node.exists_serves sign frame link s
  exact ⟨Service.stateAt_eq_iterate, frame, outcomes, hframe, hserves,
    exchangeThread_cases node hserial retries hbound hframe hserves⟩

/-- The two letters of the command. -/
def Request.letters (request : Request) : Vector UInt8 2 :=
  #v[request.command.1, request.command.2]

/-- A node with one pin, which the first parameter of a request sets. -/
def pinNode : Node UInt8 where
  execute s request := request.params.headD s
  answer _ request :=
    okResponse request.address SerialLine.sampleAnswer.network request.letters []
  length_data _ _ := Nat.zero_le 109

/-- The answer to the first transmission is lost, and nothing after it. -/
def firstAnswerLost (k : ℕ) : Round :=
  if k = 0 then .answerLost else .delivered

/-- The first round that succeeds is the second. -/
theorem eq_one_of_firstAnswerLost {request : Request} {s : σ} {k : ℕ}
    (hsecond : node.Succeeds request firstAnswerLost s 1)
    (hsucceeds : node.Succeeds request firstAnswerLost s k)
    (hbefore : ∀ j < k, ¬ node.Succeeds request firstAnswerLost s j) : k = 1 := by
  have hpos : k ≠ 0 := by
    rintro rfl
    cases hsucceeds.1
  by_contra hne
  exact hbefore 1 (by omega) hsecond

/-- The request to set the pin is written twice. -/
theorem exchange_over_link_pin :
    ∃ frame outcomes, pinNode.Serves .unsigned frame firstAnswerLost 0 outcomes ∧
      (exchangeThread 3 20 SerialLine.pinRequest.address SerialLine.pinRequest.cmd
        SerialLine.pinRequest.cmdParams outcomes).writes = [frame, frame] := by
  obtain ⟨-, frame, outcomes, -, hserves, hcases⟩ :=
    exchange_over_link pinNode .unsigned 3 (by decide) 20 SerialLine.pinRequest (by decide)
      firstAnswerLost 0
  have hsecond : pinNode.Succeeds SerialLine.pinRequest.request firstAnswerLost 0 1 :=
    ⟨rfl, by decide⟩
  refine ⟨frame, outcomes, hserves, ?_⟩
  rcases hcases with ⟨k, -, hsucceeds, hbefore, heq⟩ | ⟨hnone, -⟩
  · obtain rfl := eq_one_of_firstAnswerLost pinNode hsecond hsucceeds hbefore
    rw [heq]
    rfl
  · exact absurd hsecond (hnone 1 (by decide))

/-! ## How often the command is executed -/

/-- Whenever the callback is called, the node is as one execution of the request leaves it. -/
def ExecutesOnce (sign : CharSign) (serialFd : ℤ) (retries : UInt32) (call : SendCall) (s : σ) :
    Prop :=
  ∀ frame link outcomes, txFrame call.address call.cmd call.cmdParams = some frame →
    node.Serves sign frame link s outcomes →
    (exchangeThread serialFd retries call.address call.cmd call.cmdParams outcomes).calls ≠ [] →
    node.stateAt call.request link s (exchangeThread serialFd retries call.address call.cmd
      call.cmdParams outcomes).writes.length = node.execute s call.request

/-- Only one attempt is made from a single retry. -/
theorem attempts_eq_one_iff (retries : UInt32) : attempts retries = 1 ↔ retries = 1 := by
  unfold attempts
  constructor
  · intro hone
    split at hone
    · omega
    · exact UInt32.toNat_inj.mp hone
  · rintro rfl
    rfl

/-- A callback that was called: the last of the rounds succeeded. -/
theorem exists_of_calls_ne_nil {sign : CharSign} {serialFd : ℤ} (hserial : serialFd ≠ -1)
    {retries : UInt32} {call : SendCall} (hbound : 15 + call.cmdParams.length ≤ 65535)
    {frame : List UInt8} (hframe : txFrame call.address call.cmd call.cmdParams = some frame)
    {link : ℕ → Round} {s : σ} {outcomes : ℕ → ReceiveExit}
    (hserves : node.Serves sign frame link s outcomes)
    (hcalls : (exchangeThread serialFd retries call.address call.cmd call.cmdParams
      outcomes).calls ≠ []) :
    ∃ k < attempts retries, link k = .delivered ∧ (exchangeThread serialFd retries call.address
      call.cmd call.cmdParams outcomes).writes.length = k + 1 := by
  rcases exchangeThread_cases node hserial retries hbound hframe hserves with
    ⟨k, hk, hsucceeds, -, heq⟩ | ⟨-, heq⟩
  · refine ⟨k, hk, hsucceeds.1, ?_⟩
    rw [heq, List.length_replicate]
  · rw [heq] at hcalls
    exact absurd rfl hcalls

/-- The state after a round that was delivered: one more execution than requests before it. -/
theorem stateAt_of_delivered {request : Request} {link : ℕ → Round} {k : ℕ}
    (hk : link k = .delivered) (s : σ) :
    node.stateAt request link s (k + 1) =
      (fun t => node.execute t request)^[Service.arrivals link k + 1] s := by
  rw [Node.stateAt, Service.stateAt_eq_iterate, Service.arrivals_succ, hk]
  rfl

/-- A second attempt executes the request a second time. -/
theorem ExecutesOnce.execute_execute {sign : CharSign} {serialFd : ℤ} (hserial : serialFd ≠ -1)
    {retries : UInt32} (htwo : 1 < attempts retries) {call : SendCall}
    (hbound : 15 + call.cmdParams.length ≤ 65535) {s : σ}
    (hok : ∀ t, (node.answer t call.request).status ≠ 0x01)
    (honce : ExecutesOnce node sign serialFd retries call s) :
    node.execute (node.execute s call.request) call.request = node.execute s call.request := by
  obtain ⟨frame, hframe⟩ := exists_txFrame call.address call.cmdParams call.two_le
  obtain ⟨outcomes, hserves⟩ := node.exists_serves sign frame firstAnswerLost s
  have hsecond : node.Succeeds call.request firstAnswerLost s 1 := ⟨rfl, hok _⟩
  rcases exchangeThread_cases node hserial retries hbound hframe hserves with
    ⟨k, -, hsucceeds, hbefore, heq⟩ | ⟨hnone, -⟩
  · obtain rfl := eq_one_of_firstAnswerLost node hsecond hsucceeds hbefore
    have hstate := honce frame firstAnswerLost outcomes hframe hserves (by rw [heq]; simp)
    rw [heq] at hstate
    exact hstate
  · exact absurd hsecond (hnone 1 htwo)

/-- **How often the command is executed.**  Every exchange whose callback is called leaves the
node as one execution of the request does, whatever the link loses, exactly if only one attempt is
made or the request does nothing more when it is executed again. -/
theorem executes_once_iff (sign : CharSign) (serialFd : ℤ) (hserial : serialFd ≠ -1)
    (retries : UInt32) (call : SendCall) (hbound : 15 + call.cmdParams.length ≤ 65535) (s : σ)
    (hok : ∀ t, (node.answer t call.request).status ≠ 0x01) :
    ExecutesOnce node sign serialFd retries call s ↔
      retries = 1 ∨
        node.execute (node.execute s call.request) call.request = node.execute s call.request := by
  have hpos := one_le_attempts retries
  rw [← attempts_eq_one_iff]
  constructor
  · intro honce
    refine or_iff_not_imp_left.mpr fun hmany => ?_
    exact honce.execute_execute node hserial (by omega) hbound hok
  · intro hcond frame link outcomes hframe hserves hcalls
    obtain ⟨k, hk, hdelivered, hwrites⟩ :=
      exists_of_calls_ne_nil node hserial hbound hframe hserves hcalls
    rw [hwrites, stateAt_of_delivered node hdelivered]
    rcases hcond with hone | hidem
    · -- the only round
      obtain rfl : k = 0 := by omega
      rfl
    · exact @Service.state_of_idempotent _ _ (node.service call.request) _ hidem _

/-- Setting a pin twice is setting it once. -/
theorem executes_once_pin : ExecutesOnce pinNode .unsigned 3 20 SerialLine.pinRequest 0 :=
  (executes_once_iff pinNode .unsigned 3 (by decide) 20 SerialLine.pinRequest (by decide) 0
    fun _ => show (0x00 : UInt8) ≠ 0x01 by decide).mpr (.inr rfl)

end XbeeAssignment.XBee
