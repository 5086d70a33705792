import XbeeAssignment.XBee.MutualExclusion
import XbeeAssignment.XBee.RetryLoop
import Mathlib.Algebra.BigOperators.Ring.Finset
import Mathlib.Algebra.Order.BigOperators.Group.Finset

/-!
# Every exchange ends

The second unlock of a thread may free the mutex under another thread, so that two exchanges
run at once.  It never leaves the mutex locked for good: whoever holds it is a thread that
is inside, and can go on (`HolderInside`).  Every step but the end of the process takes one
off the steps a thread has left, so that all threads end however they take turns, and the
mutex is free when they have (`exchanges_end`).
-/

namespace XbeeAssignment.XBee

open Transition

namespace ThreadPc

/-- Started and not at its end. -/
def Pending : ThreadPc → Prop
  | .idle | .finished => False
  | .locking | .building | .looping _ | .returning => True

theorem Inside.pending {pc : ThreadPc} (h : pc.Inside) : pc.Pending := by
  cases pc with
  | building | looping _ => trivial
  | idle | locking | returning | finished => exact h.elim

/-- The steps that are left if nothing is received. -/
def stepsLeft (globalRetries : UInt32) : ThreadPc → ℕ
  | .idle => 2 * attempts globalRetries + 5
  | .locking => 2 * attempts globalRetries + 4
  | .building => 2 * attempts globalRetries + 3
  | .looping (.write retries) => 2 * attempts retries + 2
  | .looping (.receive retries) => 2 * attempts retries + 1
  | .looping .left => 2
  | .returning => 1
  | .finished => 0

theorem stepsLeft_afterReceive (globalRetries retries : UInt32) (received : Bool) :
    stepsLeft globalRetries (.looping (.afterReceive retries received)) ≤ 2 * attempts retries := by
  have hone := one_le_attempts retries
  unfold LoopPc.afterReceive
  split
  · next hpos =>
      have hless := attempts_nextRetries hpos
      rw [stepsLeft]
      omega
  · rw [stepsLeft]
    omega

theorem stepsLeft_pos {globalRetries : UInt32} {pc pc' : ThreadPc} {action : ThreadAction}
    (hnext : next globalRetries pc action = some pc') : 1 ≤ pc.stepsLeft globalRetries := by
  unfold next at hnext
  split at hnext <;> cases hnext
  all_goals simp [stepsLeft]

/-- A step of a thread is one of those it has left. -/
theorem stepsLeft_next {globalRetries : UInt32} {pc pc' : ThreadPc} {action : ThreadAction}
    (hnext : next globalRetries pc action = some pc') (habort : action ≠ .abort) :
    pc'.stepsLeft globalRetries + 1 ≤ pc.stepsLeft globalRetries := by
  unfold next at hnext
  split at hnext <;> cases hnext
  case h_4 => exact absurd rfl habort
  case h_6 retries received =>
      exact Nat.succ_le_succ (stepsLeft_afterReceive globalRetries retries received)
  all_goals simp [stepsLeft]

end ThreadPc

namespace Handler

variable {globalRetries : UInt32} {s s' : Handler} {thread : ℕ} {action : ThreadAction}

/-- Only `abort` ends the process, and nothing goes on behind it. -/
theorem terminated_of_threadStep (hstep : threadStep globalRetries s (thread, action) = some s') :
    s.terminated = false ∧ (s'.terminated = true ↔ action = .abort) := by
  unfold threadStep at hstep
  split at hstep
  · cases hstep
  next hrunning =>
  obtain ⟨pc, -, heffect⟩ := Option.bind_eq_some_iff.mp hstep
  refine ⟨by simpa using hrunning, ?_⟩
  cases action with
  | lock =>
      dsimp only at heffect
      split at heffect
      · cases heffect
        simpa [goto] using hrunning
      · cases heffect
  | abort =>
      cases heffect
      simp
  | send | build | write | receive _ | unlock | unlockGuard =>
      cases heffect
      simpa [goto] using hrunning

/-- The steps the threads have left. -/
def stepsLeft (globalRetries : UInt32) (threads : Finset ℕ) (s : Handler) : ℕ :=
  if s.terminated then 0 else ∑ thread ∈ threads, (s.pc thread).stepsLeft globalRetries

theorem stepsLeft_threadStep (threads : Finset ℕ)
    (hstep : threadStep globalRetries s (thread, action) = some s') :
    s'.stepsLeft globalRetries threads + (if thread ∈ threads then 1 else 0) ≤
      s.stepsLeft globalRetries threads := by
  obtain ⟨pc, hnext, hpc, -⟩ := threadStep_cases hstep
  obtain ⟨hrunning, hterminated⟩ := terminated_of_threadStep hstep
  have hbefore : s.stepsLeft globalRetries threads =
      ∑ thread ∈ threads, (s.pc thread).stepsLeft globalRetries := by
    simp [stepsLeft, hrunning]
  by_cases habort : action = .abort
  · have hafter : s'.stepsLeft globalRetries threads = 0 := by
      simp [stepsLeft, hterminated.mpr habort]
    rw [hafter, hbefore, Nat.zero_add]
    split
    · next hmem =>
        have hle := Finset.single_le_sum (f := fun i => (s.pc i).stepsLeft globalRetries)
          (fun _ _ => Nat.zero_le _) hmem
        exact (ThreadPc.stepsLeft_pos hnext).trans hle
    · exact Nat.zero_le _
  · have hafter : s'.stepsLeft globalRetries threads =
        ∑ i ∈ threads, (Function.update s.pc thread pc i).stepsLeft globalRetries := by
      have hon : s'.terminated = false := by simpa [habort] using hterminated
      simp [stepsLeft, hon, hpc]
    have hless := ThreadPc.stepsLeft_next hnext habort
    have hle : ∀ i ∈ threads, (Function.update s.pc thread pc i).stepsLeft globalRetries ≤
        (s.pc i).stepsLeft globalRetries := by
      intro i _
      by_cases hsame : i = thread
      · subst hsame
        rw [Function.update_self]
        omega
      · rw [Function.update_of_ne hsame]
    rw [hafter, hbefore]
    split
    · next hmem =>
        refine Finset.sum_lt_sum hle ⟨thread, hmem, ?_⟩
        rw [Function.update_self]
        omega
    · exact Finset.sum_le_sum hle

/-- A thread that does not wait for the mutex, or for which it is free, can go on. -/
theorem exists_threadStep (hrunning : s.terminated = false) (hpending : (s.pc thread).Pending)
    (hfree : s.pc thread = .locking → s.holder = none) :
    ∃ action s', action ≠ .send ∧ action ≠ .abort ∧
      threadStep globalRetries s (thread, action) = some s' := by
  cases hpc : s.pc thread with
  | idle | finished =>
      rw [hpc] at hpending
      exact hpending.elim
  | locking =>
      exact ⟨.lock, _, by simp, by simp,
        by simp [threadStep, hrunning, hpc, ThreadPc.next, hfree hpc]; rfl⟩
  | building =>
      exact ⟨.build, _, by simp, by simp, by simp [threadStep, hrunning, hpc, ThreadPc.next]; rfl⟩
  | looping pc =>
      cases pc with
      | write retries =>
          exact ⟨.write, _, by simp, by simp,
            by simp [threadStep, hrunning, hpc, ThreadPc.next]; rfl⟩
      | receive retries =>
          exact ⟨.receive true, _, by simp, by simp,
            by simp [threadStep, hrunning, hpc, ThreadPc.next]; rfl⟩
      | left =>
          exact ⟨.unlock, _, by simp, by simp,
            by simp [threadStep, hrunning, hpc, ThreadPc.next]; rfl⟩
  | returning =>
      exact ⟨.unlockGuard, _, by simp, by simp,
        by simp [threadStep, hrunning, hpc, ThreadPc.next]; rfl⟩

/-- Whoever holds the mutex can go on, and if nobody does, whoever waits for it can. -/
theorem HolderInside.exists_threadStep (hinv : s.HolderInside) (hrunning : s.terminated = false)
    (hpending : (s.pc thread).Pending) :
    ∃ thread action s', action ≠ .send ∧ action ≠ .abort ∧
      threadStep globalRetries s (thread, action) = some s' := by
  cases hholder : s.holder with
  | none => exact ⟨thread, Handler.exists_threadStep hrunning hpending fun _ => hholder⟩
  | some other =>
      have hinside := hinv other hholder
      refine ⟨other, Handler.exists_threadStep hrunning hinside.pending fun hlocking => ?_⟩
      rw [hlocking] at hinside
      exact hinside.elim

/-- **Every exchange ends.**  However the threads take turns, no set of them makes more steps than
the loops allow for.  As long as the process has not ended and a thread that was started is not
done, some started thread can go on; when all are done, the mutex is free. -/
theorem exchanges_end (globalRetries : UInt32) (labels : List (ℕ × ThreadAction)) (s : Handler)
    (hrun : Run (StepOf (threadStep globalRetries)) initial labels s) :
    (∀ threads : Finset ℕ, labels.countP (fun label => label.1 ∈ threads) ≤
        threads.card * (2 * attempts globalRetries + 5)) ∧
      (s.terminated = false → (∃ thread, (s.pc thread).Pending) →
        ∃ thread action s', action ≠ .send ∧ action ≠ .abort ∧
          threadStep globalRetries s (thread, action) = some s') ∧
      ((∀ thread, ¬ (s.pc thread).Pending) → s.holder = none) := by
  have hinv : s.HolderInside :=
    hrun.invariant (fun _ _ _ hinv hstep => hinv.step hstep) holderInside_initial
  refine ⟨fun threads => ?_, fun hrunning ⟨thread, hpending⟩ => ?_, fun hdone => ?_⟩
  · have hstart : stepsLeft globalRetries threads initial =
        threads.card * (2 * attempts globalRetries + 5) := Finset.sum_const_nat fun _ _ => rfl
    have hcount := Run.countP_le (stepsLeft globalRetries threads)
      (fun label => decide (label.1 ∈ threads))
      (fun _ _ _ hstep => by simpa using stepsLeft_threadStep threads hstep) hrun
    rw [hstart] at hcount
    exact (Nat.le_add_left ..).trans hcount
  · exact hinv.exists_threadStep hrunning hpending
  · cases hholder : s.holder with
    | none => rfl
    | some thread => exact absurd (hinv thread hholder).pending (hdone thread)

/-- Two threads, the second of which waits for the mutex: 11 steps at most of either. -/
theorem exchanges_end_waiting :
    ∃ s, Run (StepOf (threadStep 3)) initial [(0, .send), (1, .send), (0, .lock)] s ∧
      ∃ thread action s', action ≠ .send ∧ action ≠ .abort ∧
        threadStep 3 s (thread, action) = some s' := by
  have hrun : Run (StepOf (threadStep 3)) initial [(0, .send), (1, .send), (0, .lock)] _ :=
    run_iff_exec.mpr rfl
  exact ⟨_, hrun, (exchanges_end 3 _ _ hrun).2.1 rfl ⟨1, trivial⟩⟩

end Handler

end XbeeAssignment.XBee
