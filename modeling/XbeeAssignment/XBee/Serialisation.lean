import XbeeAssignment.XBee.MutualExclusion
import XbeeAssignment.XBee.RetryLoop

/-!
# Exchanges one after the other

Threads that do not free the mutex under one another use the serial line one after the
other, in the order in which they lock the mutex (`serialised`): what happens on the line
is what the first thread does there, and then what the second one does, and so on.  Each
of them does what its loop alone would do: rounds without an answer, and then one with an
answer or no rounds left.

The condition is that of `held_of_free`.  Without it the rounds of two threads mix, as
after `two_exchanges_at_once`.
-/

namespace XbeeAssignment.XBee

open Transition

/-! ## What a thread does on the line -/

/-- Whether an action uses the serial line. -/
def ThreadAction.onLine : ThreadAction → Bool
  | .write | .receive _ => true
  | .send | .lock | .build | .abort | .unlock | .unlockGuard => false

/-- Rounds without an answer. -/
def failedRounds (k : ℕ) : List ThreadAction :=
  (List.replicate k [ThreadAction.write, .receive false]).flatten

theorem failedRounds_succ (k : ℕ) :
    failedRounds (k + 1) = failedRounds k ++ [ThreadAction.write, .receive false] := by
  rw [failedRounds, List.replicate_succ', List.flatten_append, List.flatten_singleton]
  rfl

/-- The rounds of a whole exchange. -/
def WholeExchange (globalRetries : UInt32) (done : List ThreadAction) : Prop :=
  (∃ k < attempts globalRetries, done = failedRounds k ++ [.write, .receive true]) ∨
    done = failedRounds (attempts globalRetries)

namespace ThreadPc

/-- What a thread has done on the line when it stands at a place. -/
def Done (globalRetries : UInt32) : ThreadPc → List ThreadAction → Prop
  | .idle, done | .locking, done | .building, done => done = []
  | .looping (.write retries), done =>
      ∃ k, k + attempts retries = attempts globalRetries ∧ done = failedRounds k
  | .looping (.receive retries), done =>
      ∃ k, k + attempts retries = attempts globalRetries ∧ done = failedRounds k ++ [.write]
  | .looping .left, done | .returning, done | .finished, done => WholeExchange globalRetries done

variable {globalRetries : UInt32}

/-- A round ends with another one left, or the exchange is whole. -/
theorem done_afterReceive {retries : UInt32} {received : Bool} {k : ℕ}
    (hk : k + attempts retries = attempts globalRetries) :
    Done globalRetries (.looping (.afterReceive retries received))
      (failedRounds k ++ [.write] ++ [.receive received]) := by
  rw [List.append_assoc, List.singleton_append]
  unfold LoopPc.afterReceive
  split
  · next hpos =>
      have hless := attempts_nextRetries hpos
      obtain rfl := eq_false_of_nextRetries_pos hpos
      exact ⟨k + 1, by omega, (failedRounds_succ k).symm⟩
  · next hend =>
      have hone := one_le_attempts retries
      cases received with
      | true => exact .inl ⟨k, by omega, rfl⟩
      | false =>
          have hlast := attempts_eq_one hend rfl
          refine .inr ?_
          rw [← hk, hlast, failedRounds_succ]

theorem Done.next {pc pc' : ThreadPc} {action : ThreadAction} {done : List ThreadAction}
    (h : Done globalRetries pc done)
    (hnext : ThreadPc.next globalRetries pc action = some pc') :
    Done globalRetries pc' (done ++ if action.onLine then [action] else []) := by
  unfold ThreadPc.next at hnext
  split at hnext <;> cases hnext
  case h_3 =>
      rw [show done = [] from h]
      exact ⟨0, Nat.zero_add _, rfl⟩
  case h_5 =>
      obtain ⟨k, hk, rfl⟩ := h
      exact ⟨k, hk, rfl⟩
  case h_6 =>
      obtain ⟨k, hk, rfl⟩ := h
      exact done_afterReceive hk
  -- nothing is done on the line
  all_goals
    rw [if_neg (by decide), List.append_nil]
    exact h

theorem inside_of_onLine {pc pc' : ThreadPc} {action : ThreadAction}
    (hnext : ThreadPc.next globalRetries pc action = some pc') (honLine : action.onLine = true) :
    pc.Inside := by
  unfold ThreadPc.next at hnext
  split at hnext <;> cases hnext
  case h_5 => trivial
  case h_6 => trivial
  all_goals cases honLine

theorem eq_of_lock {pc pc' : ThreadPc} (hnext : ThreadPc.next globalRetries pc .lock = some pc') :
    pc = .locking ∧ pc' = .building := by
  cases pc with
  | locking => exact ⟨rfl, (Option.some.inj hnext).symm⟩
  | looping pc => cases pc <;> cases hnext
  | idle | building | returning | finished => cases hnext

/-- Past the lock. -/
def Locked (pc : ThreadPc) : Prop :=
  pc ≠ .idle ∧ pc ≠ .locking

theorem Locked.next {pc pc' : ThreadPc} {action : ThreadAction} (h : pc.Locked)
    (hnext : ThreadPc.next globalRetries pc action = some pc') : pc'.Locked := by
  unfold ThreadPc.next at hnext
  split at hnext <;> cases hnext
  case h_1 => exact absurd rfl h.1
  all_goals exact ⟨by simp, by simp⟩

end ThreadPc

/-! ## Runs -/

namespace Handler

/-- The actions on the line, with the threads they are of. -/
def lineOf (labels : List (ℕ × ThreadAction)) : List (ℕ × ThreadAction) :=
  labels.filter fun label => label.2.onLine

/-- The actions of a thread on the line. -/
def doneBy (thread : ℕ) (labels : List (ℕ × ThreadAction)) : List ThreadAction :=
  ((lineOf labels).filter fun label => label.1 = thread).map Prod.snd

/-- The threads in the order in which they lock the mutex. -/
def lockOrder (labels : List (ℕ × ThreadAction)) : List ℕ :=
  (labels.filter fun label => label.2 = .lock).map Prod.fst

section

variable (labels : List (ℕ × ThreadAction)) (thread : ℕ) (action : ThreadAction)

theorem lineOf_concat : lineOf (labels ++ [(thread, action)]) =
    lineOf labels ++ if action.onLine then [(thread, action)] else [] := by
  rw [lineOf, List.filter_append, List.filter_singleton]
  cases action.onLine <;> rfl

theorem doneBy_concat_self : doneBy thread (labels ++ [(thread, action)]) =
    doneBy thread labels ++ if action.onLine then [action] else [] := by
  rw [doneBy, lineOf_concat, List.filter_append, List.map_append]
  cases action.onLine <;> simp [doneBy]

theorem doneBy_concat_of_ne {other : ℕ} (hne : other ≠ thread) :
    doneBy other (labels ++ [(thread, action)]) = doneBy other labels := by
  rw [doneBy, lineOf_concat, List.filter_append, List.map_append]
  cases action.onLine <;> simp [doneBy, hne.symm]

theorem doneBy_concat_of_offLine {action : ThreadAction} (hoff : action.onLine = false)
    (other : ℕ) : doneBy other (labels ++ [(thread, action)]) = doneBy other labels := by
  by_cases hsame : other = thread
  · subst hsame
    rw [doneBy_concat_self, hoff, if_neg Bool.false_ne_true, List.append_nil]
  · exact doneBy_concat_of_ne labels thread action hsame

theorem lockOrder_concat : lockOrder (labels ++ [(thread, action)]) =
    lockOrder labels ++ if action = .lock then [thread] else [] := by
  rw [lockOrder, List.filter_append, List.filter_singleton, List.map_append]
  by_cases hlock : action = .lock <;> simp [lockOrder, hlock]

end

variable {globalRetries : UInt32} {s s' : Handler} {labels : List (ℕ × ThreadAction)}
  {thread : ℕ} {action : ThreadAction} {pc : ThreadPc}

/-- What has happened on the line, thread by thread. -/
structure Serial (globalRetries : UInt32) (labels : List (ℕ × ThreadAction)) (s : Handler) :
    Prop where
  held : s.Held
  /-- The holder has locked the mutex last. -/
  last : ∀ thread, s.holder = some thread → (lockOrder labels).getLast? = some thread
  nodup : (lockOrder labels).Nodup
  locked : ∀ thread ∈ lockOrder labels, (s.pc thread).Locked
  done : ∀ thread, (s.pc thread).Done globalRetries (doneBy thread labels)
  serial : lineOf labels =
    (lockOrder labels).flatMap fun thread => (doneBy thread labels).map fun action =>
      (thread, action)

theorem serial_initial : Serial globalRetries [] initial where
  held := held_initial
  last := fun _ hholder => by cases hholder
  nodup := List.nodup_nil
  locked := fun _ hmem => by cases hmem
  done := fun _ => rfl
  serial := rfl

/-- A thread that uses the line is the one that has locked the mutex last. -/
theorem Serial.exists_lockOrder_eq (h : Serial globalRetries labels s)
    (hinside : (s.pc thread).Inside) :
    ∃ before, lockOrder labels = before ++ [thread] ∧ thread ∉ before := by
  obtain ⟨before, hbefore⟩ := List.getLast?_eq_some_iff.mp (h.last thread (h.held thread hinside))
  have hnodup := h.nodup
  rw [hbefore, List.nodup_append] at hnodup
  refine ⟨before, hbefore, fun hmem => ?_⟩
  exact hnodup.2.2 thread hmem thread (List.mem_singleton_self thread) rfl

theorem Serial.serial_concat (h : Serial globalRetries labels s)
    (hnext : ThreadPc.next globalRetries (s.pc thread) action = some pc) :
    lineOf (labels ++ [(thread, action)]) =
      (lockOrder (labels ++ [(thread, action)])).flatMap fun other =>
        (doneBy other (labels ++ [(thread, action)])).map fun action => (other, action) := by
  cases honLine : action.onLine with
  | true =>
      obtain ⟨before, hbefore, hnew⟩ :=
        h.exists_lockOrder_eq (ThreadPc.inside_of_onLine hnext honLine)
      have hlock : action ≠ .lock := by
        rintro rfl
        cases honLine
      -- the threads before have done what they had done
      have hsame : ∀ other ∈ before,
          (doneBy other (labels ++ [(thread, action)])).map (fun action => (other, action)) =
            (doneBy other labels).map fun action => (other, action) := by
        intro other hother
        rw [doneBy_concat_of_ne]
        rintro rfl
        exact hnew hother
      have hserial := h.serial
      rw [hbefore, List.flatMap_append, List.flatMap_singleton] at hserial
      rw [lockOrder_concat, if_neg hlock, List.append_nil, hbefore, List.flatMap_append,
        List.flatMap_singleton, List.flatMap_congr hsame, doneBy_concat_self, if_pos honLine,
        List.map_append, List.map_singleton, ← List.append_assoc, ← hserial, lineOf_concat,
        if_pos honLine]
  | false =>
      have hline : lineOf (labels ++ [(thread, action)]) = lineOf labels := by
        rw [lineOf_concat, honLine, if_neg Bool.false_ne_true, List.append_nil]
      simp only [hline, doneBy_concat_of_offLine labels thread honLine]
      rw [lockOrder_concat]
      split
      · next hlock =>
          -- the thread has done nothing yet
          subst hlock
          have hnothing : doneBy thread labels = [] := by
            have hdone := h.done thread
            rwa [(ThreadPc.eq_of_lock hnext).1] at hdone
          rw [List.flatMap_append, List.flatMap_singleton, hnothing, List.map_nil, List.append_nil]
          exact h.serial
      · rw [List.append_nil]
        exact h.serial

/-- A thread locks the mutex once. -/
theorem Serial.not_mem_of_lock (h : Serial globalRetries labels s)
    (hnext : ThreadPc.next globalRetries (s.pc thread) .lock = some pc) :
    thread ∉ lockOrder labels := fun hmem => (h.locked thread hmem).2 (ThreadPc.eq_of_lock hnext).1

theorem Serial.nodup_concat (h : Serial globalRetries labels s)
    (hnext : ThreadPc.next globalRetries (s.pc thread) action = some pc) :
    (lockOrder (labels ++ [(thread, action)])).Nodup := by
  rw [lockOrder_concat]
  split
  · next hlock =>
      subst hlock
      exact List.nodup_append.mpr ⟨h.nodup, List.nodup_singleton thread, fun other hmem _ hthread =>
        fun hsame => h.not_mem_of_lock hnext (List.mem_singleton.mp hthread ▸ hsame ▸ hmem)⟩
  · rw [List.append_nil]
    exact h.nodup

theorem Serial.step (h : Serial globalRetries labels s)
    (hfree : action = .unlockGuard → s.holder = none)
    (hstep : threadStep globalRetries s (thread, action) = some s') :
    Serial globalRetries (labels ++ [(thread, action)]) s' := by
  obtain ⟨pc, hnext, hpc, heffect⟩ := threadStep_cases hstep
  refine { held := h.held.step hfree hstep, last := ?_, nodup := h.nodup_concat hnext,
           locked := ?_, done := ?_, serial := h.serial_concat hnext }
  · intro other hother
    rw [lockOrder_concat]
    rcases heffect with ⟨hlock, -, hholder⟩ | ⟨-, hholder⟩ | ⟨hlock, -, -, hholder⟩
    · rw [if_pos hlock, List.getLast?_concat, ← hholder]
      exact hother
    · rw [hholder] at hother
      cases hother
    · rw [if_neg hlock, List.append_nil]
      exact h.last other (hholder ▸ hother)
  · intro other hmem
    rw [lockOrder_concat] at hmem
    rw [hpc]
    by_cases hsame : other = thread
    · subst hsame
      rw [Function.update_self]
      split at hmem
      · next hlock =>
          subst hlock
          rw [(ThreadPc.eq_of_lock hnext).2]
          exact ⟨by simp, by simp⟩
      · rw [List.append_nil] at hmem
        exact (h.locked other hmem).next hnext
    · rw [Function.update_of_ne hsame]
      refine h.locked other ?_
      rcases List.mem_append.mp hmem with hbefore | hlast
      · exact hbefore
      · split at hlast
        · exact absurd (List.mem_singleton.mp hlast) hsame
        · cases hlast
  · intro other
    rw [hpc]
    by_cases hsame : other = thread
    · subst hsame
      rw [Function.update_self, doneBy_concat_self]
      exact (h.done other).next hnext
    · rw [Function.update_of_ne hsame, doneBy_concat_of_ne _ _ _ hsame]
      exact h.done other

/-- **Exchanges one after the other.**  If no thread frees the mutex under another one, what happens
on the line is what the threads do there one after the other, in the order in which they lock the
mutex; and a thread that is behind its loop has made a whole exchange: rounds without an answer, and
then one with an answer or none left. -/
theorem serialised (globalRetries : UInt32) (labels : List (ℕ × ThreadAction)) (s : Handler)
    (hrun : Run (Guarded (fun s label => label.2 = .unlockGuard → s.holder = none)
      (StepOf (threadStep globalRetries))) initial labels s) :
    (lockOrder labels).Nodup ∧
      lineOf labels = (lockOrder labels).flatMap (fun thread =>
        (doneBy thread labels).map fun action => (thread, action)) ∧
      ∀ thread, s.pc thread = .returning ∨ s.pc thread = .finished →
        WholeExchange globalRetries (doneBy thread labels) := by
  have hserial : Serial globalRetries labels s :=
    hrun.history (fun _ _ _ _ h ⟨hfree, hstep⟩ => h.step hfree hstep) serial_initial
  refine ⟨hserial.nodup, hserial.serial, fun thread hpc => ?_⟩
  have hdone := hserial.done thread
  rcases hpc with hpc | hpc
  all_goals
    rw [hpc] at hdone
    exact hdone

/-- Two threads, the first of which needs a second round. -/
theorem serialised_two :
    ∃ s, Run (Guarded (fun s label => label.2 = .unlockGuard → s.holder = none)
        (StepOf (threadStep 20))) initial
        [(0, .send), (1, .send), (0, .lock), (0, .build), (0, .write), (0, .receive false),
          (0, .write), (0, .receive true), (0, .unlock), (0, .unlockGuard), (1, .lock),
          (1, .build), (1, .write)] s ∧
      WholeExchange 20 [.write, .receive false, .write, .receive true] := by
  have hrun : Run (Guarded (fun s label => label.2 = .unlockGuard → s.holder = none)
      (StepOf (threadStep 20))) initial
      [(0, .send), (1, .send), (0, .lock), (0, .build), (0, .write), (0, .receive false),
        (0, .write), (0, .receive true), (0, .unlock), (0, .unlockGuard), (1, .lock),
        (1, .build), (1, .write)] _ := run_guarded_iff_exec.mpr rfl
  exact ⟨_, hrun, (serialised 20 _ _ hrun).2.2 0 (.inr rfl)⟩

end Handler

end XbeeAssignment.XBee
