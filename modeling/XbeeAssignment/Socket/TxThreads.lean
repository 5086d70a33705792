import XbeeAssignment.Lib.Transition
import XbeeAssignment.Socket.Transmit
import Mathlib.Logic.Function.Basic

/-!
# `Tx`, `DestroyTx` and the threads of `TxReconnect`, statement by statement

The flag `tx_is_connected` and the descriptor are two variables without a lock, which
a call of `Tx`, a call of `DestroyTx` and the threads that `InitTx` starts read and
write.  Here every read and write of one of them, and every call to the system, is a
step of its own; a pass or a `DestroyTx` that nothing comes between is the operation of
`TxHalf` (`run_pass`, `run_destroyTx`).

What the object has made of a descriptor number is kept beside the members: a number
that was never opened, or that was closed, is the system's to give to another file.
-/

namespace XbeeAssignment.Socket

open Transition

/-! ## Data -/

/-- What the object has made of a descriptor number. -/
inductive DescStatus
  /-- Not opened by this object, or closed since. -/
  | foreign
  | opened
  | connected
  deriving DecidableEq

/-- The members of the sending half, and the descriptors behind the numbers. -/
structure TxMemory where
  half : TxHalf
  descs : ℤ → DescStatus

/-- `close`, which makes the number free for other files. -/
def TxMemory.close (memory : TxMemory) (desc : ℤ) : TxMemory :=
  { memory with descs := Function.update memory.descs desc .foreign }

/-- The statements of `Tx`. -/
inductive TxPc
  | idle
  | testDesc
  | testConnected
  | load
  | send (desc : ℤ)
  deriving DecidableEq

/-- The statements of `DestroyTx`. -/
inductive DestroyPc
  | idle
  | test
  | close
  | clear
  | reset
  deriving DecidableEq

/-- The statements of a pass of `TxReconnect`. -/
inductive ReconnectPc
  | top
  | socket
  | connect
  | setConnected
  | closeFailed
  | clearFailed
  | peek
  | closeLost
  | clearLost
  deriving DecidableEq

/-! ## Steps -/

/-- One statement of `Tx`. -/
def TxPc.step (memory : TxMemory) : TxPc → TxPc
  | .idle => .idle
  | .testDesc => if memory.half.txSocketDesc ≠ -1 then .testConnected else .idle
  | .testConnected => if memory.half.txIsConnected then .load else .idle
  | .load => .send memory.half.txSocketDesc
  | .send _ => .idle

/-- One statement of `DestroyTx`. -/
def DestroyPc.step (memory : TxMemory) : DestroyPc → DestroyPc × TxMemory
  | .idle => (.idle, memory)
  | .test => (if memory.half.txSocketDesc ≠ -1 then .close else .clear, memory)
  | .close => (.clear, memory.close memory.half.txSocketDesc)
  | .clear => (.reset, { memory with half := { memory.half with txIsConnected := false } })
  | .reset => (.idle, { memory with half := { memory.half with txSocketDesc := -1 } })

/-- One statement of `TxReconnect`.  `socket` returns `-1` or a number that is not in use, and
no call succeeds on `-1`. -/
def ReconnectPc.step (memory : TxMemory) (results : TxHalf.ReconnectResults) :
    ReconnectPc → Option (ReconnectPc × TxMemory)
  | .top => some (if memory.half.txIsConnected then .peek else .socket, memory)
  | .socket =>
      if results.socket = -1 then
        some (.connect, { memory with half := { memory.half with txSocketDesc := -1 } })
      else if 0 ≤ results.socket ∧ memory.descs results.socket = .foreign then
        some (.connect,
          { half := { memory.half with txSocketDesc := results.socket }
            descs := Function.update memory.descs results.socket .opened })
      else none
  | .connect =>
      if results.connects ∧ memory.half.txSocketDesc ≠ -1 then
        some (.setConnected,
          if memory.descs memory.half.txSocketDesc = .opened then
            { memory with
              descs := Function.update memory.descs memory.half.txSocketDesc .connected }
          else memory)
      else some (.closeFailed, memory)
  | .setConnected =>
      some (.top, { memory with half := { memory.half with txIsConnected := true } })
  | .closeFailed => some (.clearFailed, memory.close memory.half.txSocketDesc)
  | .clearFailed =>
      some (.top, { memory with half := { memory.half with txIsConnected := false } })
  | .peek =>
      some (if results.lost ∧ memory.half.txSocketDesc ≠ -1 then .closeLost else .top, memory)
  | .closeLost => some (.clearLost, memory.close memory.half.txSocketDesc)
  | .clearLost =>
      some (.top, { memory with half := { memory.half with txIsConnected := false } })

/-- A call of `Tx` and one of `DestroyTx`, and the threads that `InitTx` has started. -/
structure TxThreads where
  memory : TxMemory
  tx : TxPc
  destroy : DestroyPc
  reconnect : List ReconnectPc
  /-- `DestroyTx` has returned, and `InitTx` was not called since. -/
  destroyed : Bool

inductive TxEvent
  | callInitTx
  | callTx
  | tx
  | callDestroyTx
  | destroy
  | reconnect (thread : ℕ) (results : TxHalf.ReconnectResults)

namespace TxThreads

/-- After the constructor. -/
def start : TxThreads :=
  { memory := { half := .constructed, descs := fun _ => .foreign }, tx := .idle, destroy := .idle,
    reconnect := [], destroyed := false }

/-- One statement of a call or of a thread, or the beginning of a call. -/
def next (s : TxThreads) : TxEvent → Option TxThreads
  | .callInitTx => some { s with reconnect := s.reconnect ++ [.top], destroyed := false }
  | .callTx => if s.tx = .idle then some { s with tx := .testDesc } else none
  | .tx => if s.tx = .idle then none else some { s with tx := s.tx.step s.memory }
  | .callDestroyTx => if s.destroy = .idle then some { s with destroy := .test } else none
  | .destroy =>
      if s.destroy = .idle then none
      else some { s with destroy := (s.destroy.step s.memory).1
                         memory := (s.destroy.step s.memory).2
                         destroyed := s.destroyed || s.destroy = .reset }
  | .reconnect thread results =>
      s.reconnect[thread]?.bind fun pc =>
        (pc.step s.memory results).map fun stepped =>
          { s with reconnect := s.reconnect.set thread stepped.1, memory := stepped.2 }

variable {s s' : TxThreads}

/-- What a step does. -/
inductive Stepped (s : TxThreads) : TxEvent → TxThreads → Prop
  | callInitTx : Stepped s .callInitTx
      { s with reconnect := s.reconnect ++ [.top], destroyed := false }
  | callTx (hidle : s.tx = .idle) : Stepped s .callTx { s with tx := .testDesc }
  | tx (hbusy : s.tx ≠ .idle) : Stepped s .tx { s with tx := s.tx.step s.memory }
  | callDestroyTx (hidle : s.destroy = .idle) :
      Stepped s .callDestroyTx { s with destroy := .test }
  | destroy (hbusy : s.destroy ≠ .idle) :
      Stepped s .destroy
        { s with destroy := (s.destroy.step s.memory).1
                 memory := (s.destroy.step s.memory).2
                 destroyed := s.destroyed || s.destroy = .reset }
  | reconnect {thread : ℕ} {results : TxHalf.ReconnectResults} {pc pc' : ReconnectPc}
      {memory : TxMemory} (hpc : s.reconnect[thread]? = some pc)
      (hpc' : pc.step s.memory results = some (pc', memory)) :
      Stepped s (.reconnect thread results)
        { s with reconnect := s.reconnect.set thread pc', memory := memory }

theorem next_cases {event : TxEvent} (hstep : s.next event = some s') : Stepped s event s' := by
  cases event with
  | callInitTx =>
      obtain rfl := Option.some.inj hstep
      exact .callInitTx
  | callTx =>
      rw [next] at hstep
      split_ifs at hstep with hidle
      obtain rfl := Option.some.inj hstep
      exact .callTx hidle
  | tx =>
      rw [next] at hstep
      split_ifs at hstep with hidle
      obtain rfl := Option.some.inj hstep
      exact .tx hidle
  | callDestroyTx =>
      rw [next] at hstep
      split_ifs at hstep with hidle
      obtain rfl := Option.some.inj hstep
      exact .callDestroyTx hidle
  | destroy =>
      rw [next] at hstep
      split_ifs at hstep with hidle
      obtain rfl := Option.some.inj hstep
      exact .destroy hidle
  | reconnect thread results =>
      obtain ⟨pc, hpc, hstep⟩ := Option.bind_eq_some_iff.mp hstep
      obtain ⟨⟨pc', memory⟩, hpc', rfl⟩ := Option.map_eq_some_iff.mp hstep
      exact .reconnect hpc hpc'

/-! ## What nothing interrupts -/

/-- The state with one thread at another statement, and the memory it leaves. -/
def setThread (s : TxThreads) (thread : ℕ) (pc : ReconnectPc) (memory : TxMemory) : TxThreads :=
  { s with reconnect := s.reconnect.set thread pc, memory := memory }

theorem next_setThread {thread : ℕ} (hthread : thread < s.reconnect.length) (pc : ReconnectPc)
    (memory : TxMemory) (results : TxHalf.ReconnectResults) :
    (s.setThread thread pc memory).next (.reconnect thread results) =
      (pc.step memory results).map fun stepped => s.setThread thread stepped.1 stepped.2 := by
  simp [next, setThread, hthread]

theorem run_setThread {thread : ℕ} (hthread : thread < s.reconnect.length)
    {pc pc' : ReconnectPc} {memory memory' : TxMemory} {results : TxHalf.ReconnectResults}
    {events : List TxEvent} (hstep : pc.step memory results = some (pc', memory'))
    (hrest : Run (StepOf next) (s.setThread thread pc' memory') events s') :
    Run (StepOf next) (s.setThread thread pc memory)
      (.reconnect thread results :: events) s' := by
  refine .cons ?_ hrest
  rw [StepOf, next_setThread hthread, hstep]
  rfl

/-- A pass of one thread that no other step comes between is `reconnectPass`, and what that closes
is closed. -/
theorem run_pass {thread : ℕ} (hthread : thread < s.reconnect.length) (memory : TxMemory)
    (results : TxHalf.ReconnectResults)
    (hsocket : results.socket = -1 ∨
      0 ≤ results.socket ∧ memory.descs results.socket = .foreign)
    (hconnects : results.connects = true → results.socket ≠ -1)
    (hlost : results.lost = true → memory.half.txSocketDesc ≠ -1) :
    ∃ statements memory',
      Run (StepOf next) (s.setThread thread .top memory)
        (List.replicate statements (.reconnect thread results))
        (s.setThread thread .top memory') ∧
      memory'.half = (memory.half.reconnectPass results).1 ∧
      ∀ desc ∈ (memory.half.reconnectPass results).2, memory'.descs desc = .foreign := by
  cases hflag : memory.half.txIsConnected with
  | true =>
      have htop : ReconnectPc.top.step memory results = some (.peek, memory) := by
        simp [ReconnectPc.step, hflag]
      cases hpeek : results.lost with
      | true =>
          refine ⟨4, _, run_setThread hthread htop <| run_setThread hthread
            (by rw [ReconnectPc.step, if_pos ⟨hpeek, hlost hpeek⟩]) <| run_setThread hthread rfl <|
            run_setThread hthread rfl <| .nil _, ?_⟩
          simp [TxHalf.reconnectPass, hflag, hpeek, TxMemory.close]
      | false =>
          refine ⟨2, _, run_setThread hthread htop <| run_setThread hthread
            (by rw [ReconnectPc.step, if_neg (by simp [hpeek])]) <| .nil _, ?_⟩
          simp [TxHalf.reconnectPass, hflag, hpeek]
  | false =>
      have htop : ReconnectPc.top.step memory results = some (.socket, memory) := by
        simp [ReconnectPc.step, hflag]
      have hmade : ∃ memory', ReconnectPc.socket.step memory results = some (.connect, memory') ∧
          memory'.half = { memory.half with txSocketDesc := results.socket } := by
        rcases hsocket with hfail | hfresh
        · exact ⟨_, by rw [ReconnectPc.step, if_pos hfail], by rw [hfail]⟩
        · refine ⟨_, by rw [ReconnectPc.step, if_neg (by omega), if_pos hfresh], rfl⟩
      obtain ⟨memory', hmade, hhalf⟩ := hmade
      cases hok : results.connects with
      | true =>
          refine ⟨4, _, run_setThread hthread htop <| run_setThread hthread hmade <|
            run_setThread hthread (by
              rw [ReconnectPc.step, if_pos ⟨hok, by simpa [hhalf] using hconnects hok⟩]) <|
            run_setThread hthread rfl <| .nil _, ?_⟩
          rw [TxHalf.reconnectPass, if_pos hflag, if_pos hok]
          split <;> simp [hhalf]
      | false =>
          refine ⟨5, _, run_setThread hthread htop <| run_setThread hthread hmade <|
            run_setThread hthread (by rw [ReconnectPc.step, if_neg (by simp [hok])]) <|
            run_setThread hthread rfl <| run_setThread hthread rfl <| .nil _, ?_⟩
          simp [TxHalf.reconnectPass, hflag, hok, TxMemory.close, hhalf]

/-- A call of `DestroyTx` that no other step comes between is `destroyTx`, and what that closes is
closed. -/
theorem run_destroyTx (hidle : s.destroy = .idle) :
    ∃ statements memory,
      Run (StepOf next) s (.callDestroyTx :: List.replicate statements .destroy)
        { s with memory := memory, destroyed := true } ∧
      memory.half = s.memory.half.destroyTx.1 ∧
      ∀ desc ∈ s.memory.half.destroyTx.2, memory.descs desc = .foreign := by
  by_cases hdesc : s.memory.half.txSocketDesc = -1
  · refine ⟨3, { s.memory with half := { txSocketDesc := -1, txIsConnected := false } },
      run_iff_exec.mpr ?_, rfl, ?_⟩
    · simp [exec, next, hidle, DestroyPc.step, hdesc]
    · simp [TxHalf.destroyTx, hdesc]
  · refine ⟨4, { s.memory.close s.memory.half.txSocketDesc with
        half := { txSocketDesc := -1, txIsConnected := false } },
      run_iff_exec.mpr ?_, rfl, ?_⟩
    · simp [exec, next, hidle, DestroyPc.step, hdesc, TxMemory.close]
    · simp [TxHalf.destroyTx, hdesc, TxMemory.close]

/-! ## Runs to start from -/

/-- `InitTx`, and a pass that connects the descriptor. -/
def connects (desc : ℤ) : List TxEvent :=
  .callInitTx :: List.replicate 4 (.reconnect 0 ⟨desc, true, false⟩)

/-- `Tx` up to its `send`. -/
def sends : List TxEvent :=
  .callTx :: List.replicate 3 .tx

end TxThreads

end XbeeAssignment.Socket
