import XbeeAssignment.Lib.Transition
import XbeeAssignment.XBee.Receive
import XbeeAssignment.XBee.Request

/-!
# `XBeeHandler::exchange_thread`

The thread builds its frame and then sends it in a `do … while (retries > 0)`
loop, where one iteration writes the frame, calls `receive` once, and sets

  `retries = receive(callback) ? 0 : redundancy(retries)`

with `redundancy` an unsigned decrement.  `exchangeLoop` is the whole loop over
the sequence of outcomes its `receive` calls have; the number of iterations left
is `attempts retries`, which is `2 ^ 32` for `retries = 0`, because the decrement
comes before the test.

`LoopPc` and `afterReceive` are the same loop one statement at a time, for the
modules in which other threads or the serial line act between two statements;
`exec_exchangeLoop` says that the two agree.
-/

namespace XbeeAssignment.XBee

open Transition

/-! ## The retry counter -/

/-- The lambda `redundancy`, less its sleep and its message. -/
def redundancy (retriesIntl : UInt32) : UInt32 :=
  retriesIntl - 1

/-- The value assigned to `retries` at the end of an iteration. -/
def nextRetries (retries : UInt32) (received : Bool) : UInt32 :=
  if received then 0 else redundancy retries

/-- The iterations the loop makes from `retries` on if nothing is received. -/
def attempts (retries : UInt32) : ℕ :=
  if retries = 0 then 2 ^ 32 else retries.toNat

/-- The loop goes on only after a failed `receive`. -/
theorem eq_false_of_nextRetries_pos {retries : UInt32} {received : Bool}
    (hpos : 0 < nextRetries retries received) : received = false := by
  cases received with
  | false => rfl
  | true => simp [nextRetries] at hpos

theorem attempts_nextRetries {retries : UInt32} {received : Bool}
    (hpos : 0 < nextRetries retries received) :
    attempts (nextRetries retries received) + 1 = attempts retries := by
  obtain rfl := eq_false_of_nextRetries_pos hpos
  simp only [nextRetries, redundancy, Bool.false_eq_true, if_false] at hpos ⊢
  have hne : retries - 1 ≠ 0 := (UInt32.pos_iff_ne_zero).mp hpos
  have hlt := retries.toNat_lt
  rw [attempts, if_neg hne, attempts]
  split
  · -- the decrement wraps around
    next hzero =>
      subst hzero
      rfl
  · next hzero =>
      have hpositive : retries.toNat ≠ 0 := fun h => hzero (UInt32.toNat_inj.mp (by simpa using h))
      have hle : (1 : UInt32) ≤ retries := by
        rw [UInt32.le_iff_toNat_le]
        simp only [UInt32.reduceToNat]
        omega
      rw [UInt32.toNat_sub_of_le _ _ hle]
      simp only [UInt32.reduceToNat]
      omega

/-! ## The loop -/

/-- What a run of the loop writes to the serial line and hands to the callback. -/
structure LoopTrace where
  writes : List (List UInt8)
  calls : List XBeeFrame

/-- The `do … while` loop, where the `k`-th call of `receive` exits as `outcomes k`. -/
def exchangeLoop (frame : List UInt8) (retries : UInt32) (outcomes : ℕ → ReceiveExit) : LoopTrace :=
  if h : 0 < nextRetries retries (outcomes 0).returned then
    let rest := exchangeLoop frame (nextRetries retries (outcomes 0).returned)
      fun k => outcomes (k + 1)
    { writes := frame :: rest.writes, calls := (outcomes 0).calls ++ rest.calls }
  else
    { writes := [frame], calls := (outcomes 0).calls }
termination_by attempts retries
decreasing_by
  have := attempts_nextRetries h
  omega

/-! ## The thread -/

/-- How the thread ends: by returning, by the uncaught exception of `cmd.at`, or in
`exit(EXIT_FAILURE)` on an invalid descriptor. -/
inductive ThreadEnd
  | returned
  | outOfRange
  | badDescriptor
  deriving DecidableEq, Repr

/-- What the thread writes, what it hands to the callback, and how it ends. -/
structure ThreadRun extends LoopTrace where
  ending : ThreadEnd

/-- `XBeeHandler::exchange_thread`, less its locking. -/
def exchangeThread (serialFd : ℤ) (globalRetries : UInt32) (address : Vector UInt8 8)
    (cmd cmdParams : List UInt8) (outcomes : ℕ → ReceiveExit) : ThreadRun :=
  match txFrame address cmd cmdParams with
  | none => { writes := [], calls := [], ending := .outOfRange }
  | some frame =>
      if serialFd = -1 then { writes := [], calls := [], ending := .badDescriptor }
      else { exchangeLoop frame globalRetries outcomes with ending := .returned }

/-! ## The loop, one statement at a time -/

/-- Where a thread stands in the loop: before the write, before the call of `receive`, or
behind the loop. -/
inductive LoopPc
  | write (retries : UInt32)
  | receive (retries : UInt32)
  | left
  deriving DecidableEq, Repr

/-- The assignment to `retries` and the test `retries > 0`. -/
def LoopPc.afterReceive (retries : UInt32) (received : Bool) : LoopPc :=
  if 0 < nextRetries retries received then .write (nextRetries retries received) else .left

/-- A statement of the loop. -/
inductive LoopAction
  | write
  | receive (exit : ReceiveExit)

/-- One statement, from a place in the loop and what was written and called before. -/
def loopStep (frame : List UInt8) : LoopPc × LoopTrace → LoopAction → Option (LoopPc × LoopTrace)
  | (.write retries, trace), .write =>
      some (.receive retries, { trace with writes := trace.writes ++ [frame] })
  | (.receive retries, trace), .receive exit =>
      some (.afterReceive retries exit.returned, { trace with calls := trace.calls ++ exit.calls })
  | _, _ => none

/-- The statements of the loop lead from its head to its exit, with the trace the loop
has. -/
theorem exec_exchangeLoop (frame : List UInt8) (retries : UInt32) (outcomes : ℕ → ReceiveExit)
    (before : LoopTrace) :
    ∃ actions, exec (loopStep frame) (.write retries, before) actions =
      some (.left, { writes := before.writes ++ (exchangeLoop frame retries outcomes).writes
                     calls := before.calls ++ (exchangeLoop frame retries outcomes).calls }) := by
  induction retries, outcomes using exchangeLoop.induct frame generalizing before with
  | case1 retries outcomes h ih =>
      obtain ⟨actions, hactions⟩ := ih
        { writes := before.writes ++ [frame], calls := before.calls ++ (outcomes 0).calls }
      refine ⟨.write :: .receive (outcomes 0) :: actions, ?_⟩
      rw [exchangeLoop, dif_pos h]
      simp only [exec, loopStep, Option.bind_some, LoopPc.afterReceive, if_pos h]
      simpa using hactions
  | case2 retries outcomes h =>
      refine ⟨[.write, .receive (outcomes 0)], ?_⟩
      rw [exchangeLoop, dif_neg h]
      simp [exec, loopStep, LoopPc.afterReceive, h]

end XbeeAssignment.XBee
