import XbeeAssignment.XBee.LossyLink

/-!
# One exchange after the other

An application that starts an exchange when the one before it has ended controls the
remote node by commands.  The node executes a command again whenever a retransmission
arrives, but if its commands do no more when they are executed again, that cannot be told
from a node that gets each command at most once, in order, and whose confirmations may be
lost (`exchanges_at_most_once`).
-/

namespace XbeeAssignment.XBee

open StopAndWait

variable {σ : Type*}

/-- The exchanges of `calls`, one after the other, each over a link of its own: the node's state
before and after them, and the frames the callbacks were called with. -/
inductive Exchanges (node : Node σ) (sign : CharSign) (serialFd : ℤ) (retries : UInt32) :
    List SendCall → σ → List (List XBeeFrame) → σ → Prop
  | nil (s : σ) : Exchanges node sign serialFd retries [] s [] s
  | cons {call : SendCall} {calls : List SendCall} {frame : List UInt8} {link : ℕ → Round}
      {outcomes : ℕ → ReceiveExit} {s t : σ} {frames : List (List XBeeFrame)} :
      txFrame call.address call.cmd call.cmdParams = some frame →
      node.Serves sign frame link s outcomes →
      Exchanges node sign serialFd retries calls
        (node.stateAt call.request link s (exchangeThread serialFd retries call.address call.cmd
          call.cmdParams outcomes).writes.length) frames t →
      Exchanges node sign serialFd retries (call :: calls) s
        ((exchangeThread serialFd retries call.address call.cmd call.cmdParams
          outcomes).calls :: frames) t

/-- What a callback was called with, if a response was taken. -/
def framesOf (answer : Option Response) : List XBeeFrame :=
  answer.toList.map Response.frame

/-- What the thread does is the exchange of the node's service. -/
theorem exchangeThread_eq_exchange (node : Node σ) {sign : CharSign} {serialFd : ℤ}
    (hserial : serialFd ≠ -1) (retries : UInt32) {call : SendCall}
    (hbound : 15 + call.cmdParams.length ≤ 65535) {frame : List UInt8}
    (hframe : txFrame call.address call.cmd call.cmdParams = some frame) {link : ℕ → Round} {s : σ}
    {outcomes : ℕ → ReceiveExit} (hserves : node.Serves sign frame link s outcomes) :
    (exchangeThread serialFd retries call.address call.cmd call.cmdParams
        outcomes).writes.length =
        ((node.service call.request).exchange (attempts retries) link s).rounds ∧
      (exchangeThread serialFd retries call.address call.cmd call.cmdParams outcomes).calls =
        framesOf ((node.service call.request).exchange (attempts retries) link s).taken := by
  have hcalls := hserves.calls
  rw [SendCall.decodeRequest_eq hbound hframe] at hcalls
  have htrace := exchangeThread_toLoopTrace hserial retries outcomes hframe
  rw [exchangeLoop_eq_exchange (node.service call.request) frame retries outcomes link s hcalls]
    at htrace
  rw [htrace]
  exact ⟨List.length_replicate, rfl⟩

/-- **One exchange after the other.**  If executing any of the commands a second time does no more,
then whatever the links lose, the node's states and the callbacks are those of a node that gets each
command at most once, in the order of the exchanges; a callback that is called tells the answer of
its own command, and that the command was executed. -/
theorem exchanges_at_most_once (node : Node σ) (sign : CharSign) (serialFd : ℤ)
    (hserial : serialFd ≠ -1) (retries : UInt32) (calls : List SendCall)
    (hbound : ∀ call ∈ calls, 15 + call.cmdParams.length ≤ 65535)
    (hidem : ∀ call ∈ calls, ∀ s, node.execute (node.execute s call.request) call.request =
      node.execute s call.request)
    (s t : σ) (frames : List (List XBeeFrame))
    (hexchanges : Exchanges node sign serialFd retries calls s frames t) :
    ∃ answers, frames = answers.map framesOf ∧
      AtMostOnce node.service (calls.map SendCall.request) s answers t := by
  induction hexchanges with
  | nil s => exact ⟨[], rfl, .nil s⟩
  | @cons call calls frame link outcomes s t frames hframe hserves _ ih =>
      obtain ⟨answers, rfl, hrest⟩ := ih
        (fun other hother => hbound other (List.mem_cons_of_mem _ hother))
        (fun other hother => hidem other (List.mem_cons_of_mem _ hother))
      obtain ⟨hrounds, hcalls⟩ := exchangeThread_eq_exchange node hserial retries
        (hbound call List.mem_cons_self) hframe hserves
      rw [hrounds, Node.stateAt, ← Service.exchange_state] at hrest
      refine ⟨_ :: answers, by rw [hcalls, List.map_cons], ?_⟩
      exact atMostOnce_exchange (hidem call List.mem_cons_self s) (attempts retries) link hrest

/-- A pin is set twice, and the first answer to either request is lost. -/
theorem exchanges_at_most_once_pin :
    ∃ frames t answers,
      Exchanges pinNode .unsigned 3 20 [SerialLine.pinRequest, SerialLine.pinRequest] 0 frames t ∧
      AtMostOnce pinNode.service [SerialLine.pinRequest.request, SerialLine.pinRequest.request] 0
        answers t := by
  obtain ⟨frame, hframe⟩ := exists_txFrame SerialLine.pinRequest.address
    SerialLine.pinRequest.cmdParams SerialLine.pinRequest.two_le
  obtain ⟨outcomes, hserves⟩ := pinNode.exists_serves .unsigned frame firstAnswerLost 0
  obtain ⟨outcomes', hserves'⟩ := pinNode.exists_serves .unsigned frame firstAnswerLost
    (pinNode.stateAt SerialLine.pinRequest.request firstAnswerLost 0 (exchangeThread 3 20
      SerialLine.pinRequest.address SerialLine.pinRequest.cmd SerialLine.pinRequest.cmdParams
      outcomes).writes.length)
  have hexchanges : Exchanges pinNode .unsigned 3 20
      [SerialLine.pinRequest, SerialLine.pinRequest] 0 _ _ :=
    .cons hframe hserves (.cons hframe hserves' (.nil _))
  obtain ⟨answers, -, honce⟩ := exchanges_at_most_once pinNode .unsigned 3 (by decide) 20
    [SerialLine.pinRequest, SerialLine.pinRequest]
    (List.forall_mem_cons.mpr ⟨by decide, List.forall_mem_singleton.mpr (by decide)⟩)
    (fun call _ s => by cases h : call.request.params <;> simp [pinNode, h]) 0 _ _ hexchanges
  exact ⟨_, _, answers, hexchanges, honce⟩

end XbeeAssignment.XBee
