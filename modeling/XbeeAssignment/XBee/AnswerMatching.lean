import XbeeAssignment.Lib.Transition
import XbeeAssignment.XBee.Exchange
import XbeeAssignment.XBee.ResponseDecoding

/-!
# Whose answer the callback gets

`SerialLine` runs the exchanges of a sequence of `send` calls one after the
other on one serial line.  Every transmission can be answered by the remote, any
number of times and at any later moment; an answer is appended to the unread
input as a whole, and one `receive` reads the first 128 unread bytes.

Nothing ties an answer to a request: the frame id is always `0x01`, and
`receive` compares neither the address nor the AT command with those of the
request.  The unread input is flushed after a successful `receive` only.  So an
answer that is late by one exchange is handed to the next request's callback
(`late_answer`).

What the code does guarantee is `own_answers`: if no answer to another request
is unread when an exchange starts or arrives while it is served, and a read takes
all the unread bytes there are, then a callback gets the answer to its own
request.  The invariant is that the unread input is a concatenation of whole
answers to the request being served (`OwnUnread`).
-/

namespace XbeeAssignment.XBee

open ByteString Transition

/-! ## Requests and answers -/

/-- The arguments of a `send` call whose command has the two characters `cmd.at` asks for. -/
structure SendCall where
  address : Vector UInt8 8
  cmd : List UInt8
  cmdParams : List UInt8
  two_le : 2 ≤ cmd.length
  deriving DecidableEq

/-- `r` is the remote's response to a transmission of `request`: it names the request's
address and AT command. -/
def Answers (request : SendCall) (r : Response) : Prop :=
  r.address = request.address ∧ r.command.toList = request.cmd.take 2

instance (request : SendCall) (r : Response) : Decidable (Answers request r) :=
  inferInstanceAs (Decidable (_ ∧ _))

/-- One invocation of a callback: the request it was passed with, the buffer that was read,
and the frame it got. -/
structure CallbackCall where
  request : SendCall
  buf : Vector UInt8 128
  frame : XBeeFrame
  deriving DecidableEq

/-- The AT command bytes, at 15 and 16, and the source address are those of the request. -/
def CallbackCall.Matches (call : CallbackCall) : Prop :=
  (call.buf.toList.drop 15).take 2 = call.request.cmd.take 2 ∧
    call.frame.address.toNat = beValue call.request.address.toList

instance (call : CallbackCall) : Decidable call.Matches :=
  inferInstanceAs (Decidable (_ ∧ _))

/-! ## Exchanges on a serial line -/

/-- The request being served and its place in the loop, the requests transmitted so far, the
unread input, and the callbacks invoked so far. -/
structure SerialLine where
  serving : Option (SendCall × LoopPc)
  transmitted : List SendCall
  unread : List UInt8
  calls : List CallbackCall
  deriving DecidableEq

inductive LineEvent
  /-- The next request's thread has the mutex and enters its loop. -/
  | start (request : SendCall)
  | write
  /-- The response to an earlier transmission arrives. -/
  | arrive (request : SendCall) (r : Response)
  | receive
  /-- `read` fails with `-1`. -/
  | receiveError
  | finish

namespace SerialLine

def initial : SerialLine :=
  { serving := none, transmitted := [], unread := [], calls := [] }

/-- What one `read` returns. -/
def nextRead (line : SerialLine) : ReadResult :=
  .bytes (line.unread.take 128) (List.length_take_le ..)

/-- The line after a `receive` that exits as `exit`; only a successful one flushes the
input. -/
def afterReceive (line : SerialLine) (request : SendCall) (retries : UInt32) (exit : ReceiveExit) :
    SerialLine :=
  { line with
    serving := some (request, .afterReceive retries exit.returned)
    unread := if exit.returned then [] else line.unread.drop 128
    calls := line.calls ++ exit.calls.map fun frame =>
      { request := request
        buf := rxBuf (line.unread.take 128) (List.length_take_le ..)
        frame := frame } }

/-- One step of the thread being served, of the remote, or to the next request. -/
def step (sign : CharSign) (globalRetries : UInt32) (line : SerialLine) :
    LineEvent → Option SerialLine
  | .start request =>
      match line.serving with
      | none => some { line with serving := some (request, .write globalRetries) }
      | some _ => none
  | .write =>
      match line.serving with
      | some (request, .write retries) =>
          some { line with
            serving := some (request, .receive retries)
            transmitted := line.transmitted ++ [request] }
      | _ => none
  | .arrive request r =>
      if request ∈ line.transmitted ∧ Answers request r then
        some { line with unread := line.unread ++ r.encode }
      else none
  | .receive =>
      match line.serving with
      | some (request, .receive retries) =>
          -- the request is not an argument of `receive`
          (XBee.receive sign line.nextRead).map (line.afterReceive request retries)
      | _ => none
  | .receiveError =>
      match line.serving with
      | some (request, .receive retries) =>
          some { line with serving := some (request, .afterReceive retries false) }
      | _ => none
  | .finish =>
      match line.serving with
      | some (_, .left) => some { line with serving := none }
      | _ => none

/-! ## Runs in which only own answers are read -/

/-- The unread input is a concatenation of whole answers to `request`. -/
def OnlyAnswers (line : SerialLine) (request : SendCall) : Prop :=
  ∃ answers : List Response, line.unread = (answers.map Response.encode).flatten ∧
    ∀ r ∈ answers, Answers request r

/-- An exchange starts with no answer to another request unread, none arrives while it is
served, and a read takes all that is unread. -/
def OwnAnswersOnly (line : SerialLine) : LineEvent → Prop
  | .start request => line.OnlyAnswers request
  | .arrive _ r => ∀ request pc, line.serving = some (request, pc) → Answers request r
  | .receive => line.unread.length ≤ 128
  | _ => True

/-- The unread input is made of answers to the request being served. -/
def OwnUnread (line : SerialLine) : Prop :=
  ∀ request pc, line.serving = some (request, pc) → line.OnlyAnswers request

theorem onlyAnswers_of_unread_nil {line : SerialLine} (hunread : line.unread = [])
    (request : SendCall) : line.OnlyAnswers request :=
  ⟨[], hunread, by simp⟩

/-- A read that takes only whole answers to `request` calls the callback with no other. -/
theorem matches_of_receive {sign : CharSign} {request : SendCall} {content : List UInt8}
    {fits : content.length ≤ 128} {answers : List Response} {exit : ReceiveExit}
    (hcontent : content = (answers.map Response.encode).flatten)
    (hanswers : ∀ r ∈ answers, Answers request r)
    (hexit : XBee.receive sign (.bytes content fits) = some exit) {frame : XBeeFrame}
    (hframe : frame ∈ exit.calls) :
    CallbackCall.Matches { request := request, buf := rxBuf content fits, frame := frame } := by
  cases answers with
  | nil =>
      -- nothing was read, and a buffer of zeros does not pass the checksum test
      obtain rfl : content = [] := by simpa using hcontent
      have hinvokes : InvokesCallback sign (.bytes [] fits) :=
        ⟨exit, hexit, List.ne_nil_of_mem hframe⟩
      have htests := ((invokesCallback_iff sign fits).mp hinvokes).1
      have hsum := ((passesTests_iff sign fits).mp htests).2
      exact absurd hsum (by decide)
  | cons r answers =>
      -- the fixed offsets lie in the first answer, whatever follows it
      obtain ⟨haddress, hcommand⟩ := hanswers r (List.mem_cons_self ..)
      obtain rfl : content = r.encode ++ (answers.map Response.encode).flatten := by
        simpa using hcontent
      refine ⟨(command_encode fits).trans hcommand, ?_⟩
      rw [address_of_calls_encode fits hexit hframe, toNat_address, haddress]

/-- What every step under the condition preserves. -/
structure OwnInvariant (line : SerialLine) : Prop where
  own_unread : line.OwnUnread
  calls_match : ∀ call ∈ line.calls, call.Matches

theorem ownInvariant_initial : initial.OwnInvariant := by
  constructor
  · intro request pc hserving
    cases hserving
  · intro call hcall
    cases hcall

/-- A step of the thread being served that reads nothing and calls nothing. -/
theorem OwnInvariant.same_request {line line' : SerialLine} (hinv : line.OwnInvariant)
    {request : SendCall} {pc pc' : LoopPc} (hserving : line.serving = some (request, pc))
    (hserving' : line'.serving = some (request, pc')) (hunread : line'.unread = line.unread)
    (hcalls : line'.calls = line.calls) : line'.OwnInvariant := by
  constructor
  · intro other otherPc hother
    rw [hserving'] at hother
    obtain ⟨rfl, -⟩ := Prod.mk.inj (Option.some.inj hother)
    unfold OnlyAnswers
    rw [hunread]
    exact hinv.own_unread _ _ hserving
  · intro call hcall
    rw [hcalls] at hcall
    exact hinv.calls_match call hcall

theorem OwnInvariant.afterReceive {sign : CharSign} {line : SerialLine} (hinv : line.OwnInvariant)
    (hlength : line.unread.length ≤ 128) {request : SendCall} {retries : UInt32}
    (hserving : line.serving = some (request, .receive retries)) {exit : ReceiveExit}
    (hexit : XBee.receive sign line.nextRead = some exit) :
    (line.afterReceive request retries exit).OwnInvariant := by
  obtain ⟨answers, hunread, hanswers⟩ := hinv.own_unread _ _ hserving
  have hall : line.unread.take 128 = line.unread := List.take_of_length_le hlength
  constructor
  · -- the read took everything, flushed or not
    have hrest : line.unread.drop 128 = [] := List.drop_eq_nil_of_le hlength
    intro other pc _
    apply onlyAnswers_of_unread_nil
    simp [SerialLine.afterReceive, hrest]
  · intro call hcall
    rcases List.mem_append.mp hcall with hold | hnew
    · exact hinv.calls_match call hold
    · obtain ⟨frame, hframe, rfl⟩ := List.mem_map.mp hnew
      exact matches_of_receive (hall.trans hunread) hanswers hexit hframe

theorem OwnInvariant.step {sign : CharSign} {globalRetries : UInt32} {line line' : SerialLine}
    {event : LineEvent} (hinv : line.OwnInvariant) (hcond : line.OwnAnswersOnly event)
    (hstep : line.step sign globalRetries event = some line') : line'.OwnInvariant := by
  cases event with
  | start request =>
      cases hserving : line.serving with
      | some _ => simp [SerialLine.step, hserving] at hstep
      | none =>
          simp only [SerialLine.step, hserving, Option.some.injEq] at hstep
          subst hstep
          -- what is unread when the exchange starts is the condition's
          refine ⟨?_, hinv.calls_match⟩
          intro other pc hother
          obtain ⟨rfl, -⟩ := Prod.mk.inj (Option.some.inj hother)
          exact hcond
  | write =>
      simp only [SerialLine.step] at hstep
      split at hstep
      · next request retries hserving =>
          cases hstep
          exact hinv.same_request hserving rfl rfl rfl
      · cases hstep
  | arrive request r =>
      simp only [SerialLine.step] at hstep
      split at hstep
      · cases hstep
        refine ⟨?_, hinv.calls_match⟩
        intro other pc hother
        obtain ⟨answers, hunread, hanswers⟩ := hinv.own_unread other pc hother
        refine ⟨answers ++ [r], by simp [hunread], ?_⟩
        intro answer hanswer
        rcases List.mem_append.mp hanswer with hold | hnew
        · exact hanswers answer hold
        · obtain rfl := List.mem_singleton.mp hnew
          exact hcond other pc hother
      · cases hstep
  | receive =>
      simp only [SerialLine.step] at hstep
      split at hstep
      · next request retries hserving =>
          obtain ⟨exit, hexit, rfl⟩ := Option.map_eq_some_iff.mp hstep
          exact hinv.afterReceive hcond hserving hexit
      · cases hstep
  | receiveError =>
      simp only [SerialLine.step] at hstep
      split at hstep
      · next request retries hserving =>
          cases hstep
          exact hinv.same_request hserving rfl rfl rfl
      · cases hstep
  | finish =>
      simp only [SerialLine.step] at hstep
      split at hstep
      · cases hstep
        refine ⟨?_, hinv.calls_match⟩
        intro other pc hother
        cases hother
      · cases hstep

/-- **Own answers.**  In every run in which an exchange reads nothing but whole answers to
its own request, every callback gets a frame with the AT command and the address of the
request it was passed with. -/
theorem own_answers (sign : CharSign) (globalRetries : UInt32) (events : List LineEvent)
    (line : SerialLine)
    (hrun : Run (Guarded OwnAnswersOnly (StepOf (step sign globalRetries))) initial events line) :
    ∀ call ∈ line.calls, call.Matches := by
  have hinv : line.OwnInvariant := by
    apply hrun.invariant _ ownInvariant_initial
    intro line event line' hinv hstep
    exact hinv.step hstep.1 hstep.2
  exact hinv.calls_match

/-! ## Two runs -/

/-- A request for the samples of the end node. -/
def sampleRequest : SendCall :=
  { address := #v[0x00, 0x13, 0xA2, 0x00, 0x40, 0xE7, 0x1A, 0xDD], cmd := [0x49, 0x53],
    cmdParams := [], two_le := by decide }

/-- A request to set a pin of the same node. -/
def pinRequest : SendCall :=
  { address := #v[0x00, 0x13, 0xA2, 0x00, 0x40, 0xE7, 0x1A, 0xDD], cmd := [0x44, 0x31],
    cmdParams := [0x05], two_le := by decide }

/-- The end node's answer to the first of the two. -/
def sampleAnswer : Response :=
  { frameId := 0x01, address := #v[0x00, 0x13, 0xA2, 0x00, 0x40, 0xE7, 0x1A, 0xDD],
    network := #v[0x7D, 0x84], command := #v[0x49, 0x53], status := 0x00,
    data := [0x01, 0x00, 0x00, 0x04, 0x02, 0x1F] }

/-- The line when the request for samples has been sent once. -/
def sampleLine (pc : LoopPc) (unread : List UInt8) (calls : List CallbackCall) : SerialLine :=
  { serving := some (sampleRequest, pc), transmitted := [sampleRequest], unread := unread,
    calls := calls }

/-- The request is sent once and its answer is read. -/
theorem own_answers_sample :
    ∃ line, Run (Guarded OwnAnswersOnly (StepOf (step .unsigned 20))) initial
        [.start sampleRequest, .write, .arrive sampleRequest sampleAnswer, .receive, .finish] line ∧
      line.calls.length = 1 ∧ ∀ call ∈ line.calls, call.Matches := by
  have harrive : step .unsigned 20 (sampleLine (.receive 20) [] [])
      (.arrive sampleRequest sampleAnswer) =
        some (sampleLine (.receive 20) sampleAnswer.encode []) := by
    decide +kernel
  have hreceive : step .unsigned 20 (sampleLine (.receive 20) sampleAnswer.encode []) .receive =
      some (sampleLine .left []
        [{ request := sampleRequest, buf := rxBuf sampleAnswer.encode (by decide),
           frame := { length := 21, address := 0x0013A20040E71ADD, data := [1, 0, 0, 4, 2, 31],
                      status := 0, command := [] } }]) := by
    decide +kernel
  have hanswers : ∀ request pc, (sampleLine (.receive 20) [] []).serving = some (request, pc) →
      Answers request sampleAnswer := by
    intro request pc hserving
    obtain ⟨rfl, -⟩ := Prod.mk.inj (Option.some.inj hserving)
    decide
  have hlength : sampleAnswer.encode.length ≤ 128 := by decide
  have hrun : Run (Guarded OwnAnswersOnly (StepOf (step .unsigned 20))) initial
      [.start sampleRequest, .write, .arrive sampleRequest sampleAnswer, .receive, .finish] _ :=
    .cons ⟨onlyAnswers_of_unread_nil rfl _, rfl⟩ <| .cons ⟨trivial, rfl⟩ <|
      .cons ⟨hanswers, harrive⟩ <| .cons ⟨hlength, hreceive⟩ <| .cons ⟨trivial, rfl⟩ <| .nil _
  exact ⟨_, hrun, rfl, own_answers .unsigned 20 _ _ hrun⟩

/-- The first transmission of the request for samples is answered after the first `receive`,
so the request is sent twice.  The second answer comes while the next request is served, and
goes to its callback. -/
theorem late_answer :
    ∃ line, Run (StepOf (step .unsigned 20)) initial
        [.start sampleRequest, .write, .receive, .write, .arrive sampleRequest sampleAnswer,
          .receive, .finish, .start pinRequest, .write, .arrive sampleRequest sampleAnswer,
          .receive] line ∧
      ¬ ∀ call ∈ line.calls, call.Matches := by
  have hexec : ((exec (step .unsigned 20) initial
      [.start sampleRequest, .write, .receive, .write, .arrive sampleRequest sampleAnswer,
        .receive, .finish, .start pinRequest, .write, .arrive sampleRequest sampleAnswer,
        .receive]).any fun line => !decide (∀ call ∈ line.calls, call.Matches)) = true := by
    decide +kernel
  obtain ⟨line, hline, hbad⟩ := (Option.any_eq_true _ _).mp hexec
  exact ⟨line, run_iff_exec.mpr hline, by simpa using hbad⟩

end SerialLine

end XbeeAssignment.XBee
