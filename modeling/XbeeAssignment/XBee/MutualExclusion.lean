import XbeeAssignment.Lib.Transition
import XbeeAssignment.XBee.Exchange
import Mathlib.Logic.Function.Basic

/-!
# Exchanges and `recieve_mutex`

Every `send` starts a thread that runs `exchange_thread`.  The thread locks
`recieve_mutex` with a `lock_guard`, goes through its loop, unlocks the mutex by
hand, and returns; on the way out the guard's destructor unlocks the mutex once
more.  `threadStep` interleaves these steps for any number of threads.

Up to its own `unlock` a thread inside the exchange is the one that holds the
mutex (`Held`), and that survives every step of every thread except a
destructor's unlock that finds the mutex held.  At that unlock the thread no
longer holds the mutex, whatever happened before (`HolderInside`), so a run is
free of it exactly if no thread gets to the end of `exchange_thread`.

Unlocking a mutex that another thread holds is undefined for `std::mutex`; here
it frees the mutex, as the lock underneath does.
-/

namespace XbeeAssignment.XBee

open Transition

/-- Where a thread of `exchange_thread` stands. -/
inductive ThreadPc
  /-- Not started by `send` yet. -/
  | idle
  /-- In the constructor of the guard. -/
  | locking
  /-- Before the loop: waiting for the line and building the frame. -/
  | building
  /-- In the loop; `LoopPc.left` is at `recieve_mutex.unlock()`. -/
  | looping (pc : LoopPc)
  /-- In the destructor of the guard. -/
  | returning
  | finished

inductive ThreadAction
  | send
  | lock
  | build
  /-- `cmd.at` throws, or the descriptor is invalid: the process ends. -/
  | abort
  | write
  | receive (received : Bool)
  | unlock
  | unlockGuard
  deriving DecidableEq

namespace ThreadPc

/-- The control flow of one thread. -/
def next (globalRetries : UInt32) : ThreadPc → ThreadAction → Option ThreadPc
  | .idle, .send => some .locking
  | .locking, .lock => some .building
  | .building, .build => some (.looping (.write globalRetries))
  | .building, .abort => some .building
  | .looping (.write retries), .write => some (.looping (.receive retries))
  | .looping (.receive retries), .receive received =>
      some (.looping (.afterReceive retries received))
  | .looping .left, .unlock => some .returning
  | .returning, .unlockGuard => some .finished
  | _, _ => none

/-- Between locking the mutex and unlocking it by hand. -/
def Inside : ThreadPc → Prop
  | .building | .looping _ => True
  | _ => False

/-- Between locking the mutex and the end of the last `receive`. -/
def InExchange : ThreadPc → Prop
  | .building | .looping (.write _) | .looping (.receive _) => True
  | _ => False

theorem InExchange.inside {pc : ThreadPc} (h : pc.InExchange) : pc.Inside := by
  cases pc with
  | building | looping _ => trivial
  | idle | locking | returning | finished => exact h

variable {globalRetries : UInt32} {pc pc' : ThreadPc} {action : ThreadAction}

/-- The control flow enters and leaves the mutex only by locking and unlocking it. -/
theorem inside_next (hnext : next globalRetries pc action = some pc') (hlock : action ≠ .lock)
    (hunlock : action ≠ .unlock) : pc'.Inside ↔ pc.Inside := by
  unfold next at hnext
  split at hnext <;> cases hnext <;> simp_all [Inside]

theorem inside_of_unlock (hnext : next globalRetries pc .unlock = some pc') :
    pc.Inside ∧ ¬ pc'.Inside := by
  unfold next at hnext
  split at hnext <;> cases hnext <;> simp_all [Inside]

theorem not_inside_of_unlockGuard (hnext : next globalRetries pc .unlockGuard = some pc') :
    ¬ pc.Inside := by
  unfold next at hnext
  split at hnext <;> cases hnext <;> simp_all [Inside]

theorem inside_of_lock (hnext : next globalRetries pc .lock = some pc') : pc'.Inside := by
  unfold next at hnext
  split at hnext <;> cases hnext <;> simp_all [Inside]

end ThreadPc

/-- The threads of one `XBeeHandler` and its mutex. -/
structure Handler where
  holder : Option ℕ
  pc : ℕ → ThreadPc
  terminated : Bool

namespace Handler

def initial : Handler :=
  { holder := none, pc := fun _ => .idle, terminated := false }

/-- The thread goes on to `pc`. -/
def goto (s : Handler) (thread : ℕ) (pc : ThreadPc) : Handler :=
  { s with pc := Function.update s.pc thread pc }

/-- One step of one thread. -/
def threadStep (globalRetries : UInt32) (s : Handler) (label : ℕ × ThreadAction) :
    Option Handler :=
  if s.terminated then none
  else
    (ThreadPc.next globalRetries (s.pc label.1) label.2).bind fun pc =>
      match label.2 with
      | .lock =>
          if s.holder = none then some { s.goto label.1 pc with holder := some label.1 } else none
      -- neither unlock asks who holds the mutex
      | .unlock | .unlockGuard => some { s.goto label.1 pc with holder := none }
      | .abort => some { s.goto label.1 pc with terminated := true }
      | _ => some (s.goto label.1 pc)

variable {globalRetries : UInt32} {s s' : Handler} {thread : ℕ} {action : ThreadAction}

/-- What a step of a thread does to its place and to the mutex. -/
theorem threadStep_cases (hstep : threadStep globalRetries s (thread, action) = some s') :
    ∃ pc, ThreadPc.next globalRetries (s.pc thread) action = some pc ∧
      s'.pc = Function.update s.pc thread pc ∧
      ((action = .lock ∧ s.holder = none ∧ s'.holder = some thread) ∨
        ((action = .unlock ∨ action = .unlockGuard) ∧ s'.holder = none) ∨
        (action ≠ .lock ∧ action ≠ .unlock ∧ action ≠ .unlockGuard ∧ s'.holder = s.holder)) := by
  unfold threadStep at hstep
  split at hstep
  · cases hstep
  obtain ⟨pc, hnext, heffect⟩ := Option.bind_eq_some_iff.mp hstep
  refine ⟨pc, hnext, ?_⟩
  cases action with
  | lock =>
      dsimp only at heffect
      split at heffect
      · next hfree =>
          cases heffect
          exact ⟨rfl, .inl ⟨rfl, hfree, rfl⟩⟩
      · cases heffect
  | unlock =>
      cases heffect
      exact ⟨rfl, .inr (.inl ⟨.inl rfl, rfl⟩)⟩
  | unlockGuard =>
      cases heffect
      exact ⟨rfl, .inr (.inl ⟨.inr rfl, rfl⟩)⟩
  | send | build | abort | write | receive _ =>
      cases heffect
      exact ⟨rfl, .inr (.inr ⟨by simp, by simp, by simp, rfl⟩)⟩

/-! ## Who holds the mutex -/

/-- The thread that holds the mutex has not unlocked it by hand yet. -/
def HolderInside (s : Handler) : Prop :=
  ∀ thread, s.holder = some thread → (s.pc thread).Inside

/-- A thread that has not unlocked the mutex by hand yet holds it. -/
def Held (s : Handler) : Prop :=
  ∀ thread, (s.pc thread).Inside → s.holder = some thread

theorem HolderInside.step (hinv : s.HolderInside)
    (hstep : threadStep globalRetries s (thread, action) = some s') : s'.HolderInside := by
  obtain ⟨pc, hnext, hpc, heffect⟩ := threadStep_cases hstep
  intro other hother
  rw [hpc]
  rcases heffect with ⟨rfl, -, hholder⟩ | ⟨-, hholder⟩ | ⟨hlock, hunlock, -, hholder⟩
  · obtain rfl : thread = other := by simpa [hholder] using hother
    rw [Function.update_self]
    exact ThreadPc.inside_of_lock hnext
  · simp [hholder] at hother
  · -- no lock or unlock: the holder is the same, and is inside as before
    have hinside := hinv other (hholder ▸ hother)
    by_cases hsame : other = thread
    · subst hsame
      rw [Function.update_self]
      exact (ThreadPc.inside_next hnext hlock hunlock).mpr hinside
    · rwa [Function.update_of_ne hsame]

/-- The guard's unlock comes from a thread that does not hold the mutex. -/
theorem HolderInside.not_holder_of_unlockGuard (hinv : s.HolderInside)
    (hstep : threadStep globalRetries s (thread, .unlockGuard) = some s') :
    s.holder ≠ some thread := by
  obtain ⟨pc, hnext, -, -⟩ := threadStep_cases hstep
  exact fun hholder => ThreadPc.not_inside_of_unlockGuard hnext (hinv thread hholder)

/-- `Held` survives every step but an unlock of the guard that finds the mutex held. -/
theorem Held.step (hinv : s.Held)
    (hfree : action = .unlockGuard → s.holder = none)
    (hstep : threadStep globalRetries s (thread, action) = some s') : s'.Held := by
  obtain ⟨pc, hnext, hpc, heffect⟩ := threadStep_cases hstep
  intro other hother
  rw [hpc] at hother
  rcases heffect with ⟨rfl, hnone, hholder⟩ | ⟨hunlock, hholder⟩ | ⟨hlock, hunlock, -, hholder⟩
  · by_cases hsame : other = thread
    · rw [hholder, hsame]
    · -- nobody was inside, since nobody held the mutex
      rw [Function.update_of_ne hsame] at hother
      have := hinv other hother
      rw [hnone] at this
      cases this
  · -- whoever is inside holds the mutex, so it is the thread that unlocks, which leaves
    by_cases hsame : other = thread
    · subst hsame
      rw [Function.update_self] at hother
      rcases hunlock with rfl | rfl
      · exact absurd hother (ThreadPc.inside_of_unlock hnext).2
      · exact absurd ((ThreadPc.inside_next hnext (by simp) (by simp)).mp hother)
          (ThreadPc.not_inside_of_unlockGuard hnext)
    · rw [Function.update_of_ne hsame] at hother
      have hheld := hinv other hother
      rcases hunlock with rfl | rfl
      · have hthread := hinv thread (ThreadPc.inside_of_unlock hnext).1
        rw [hheld] at hthread
        exact absurd (Option.some.inj hthread) hsame
      · rw [hfree rfl] at hheld
        cases hheld
  · -- no lock or unlock
    rw [hholder]
    by_cases hsame : other = thread
    · subst hsame
      rw [Function.update_self] at hother
      exact hinv other ((ThreadPc.inside_next hnext hlock hunlock).mp hother)
    · rw [Function.update_of_ne hsame] at hother
      exact hinv other hother

/-! ## Runs -/

/-- An unlock is performed by the thread that holds the mutex. -/
def OwnerUnlocks (s : Handler) (label : ℕ × ThreadAction) : Prop :=
  label.2 = .unlock ∨ label.2 = .unlockGuard → s.holder = some label.1

/-- No two threads are in their exchange. -/
def Exclusive (s : Handler) : Prop :=
  ∀ first second, (s.pc first).InExchange → (s.pc second).InExchange → first = second

theorem Held.exclusive (hinv : s.Held) : s.Exclusive := by
  intro first second hfirst hsecond
  have hholder := hinv first hfirst.inside
  rw [hinv second hsecond.inside] at hholder
  exact (Option.some.inj hholder).symm

theorem holderInside_initial : initial.HolderInside := by
  intro thread hholder
  cases hholder

theorem held_initial : initial.Held := by
  intro thread hinside
  exact hinside.elim

/-- `Held` holds as long as no unlock of a guard finds the mutex held. -/
theorem held_of_free {labels : List (ℕ × ThreadAction)}
    (hrun : Run (Guarded (fun s label => label.2 = .unlockGuard → s.holder = none)
      (StepOf (threadStep globalRetries))) initial labels s) : s.Held := by
  refine hrun.invariant ?_ held_initial
  rintro s ⟨thread, action⟩ s' hinv ⟨hfree, hstep⟩
  exact hinv.step hfree hstep

/-- **Mutual exclusion.**  Every unlock of a run is performed by the holder and no two threads
are in their exchange, exactly if no thread of the run gets to its guard's unlock. -/
theorem exclusion_iff (globalRetries : UInt32) (labels : List (ℕ × ThreadAction)) (s : Handler)
    (hrun : Run (StepOf (threadStep globalRetries)) initial labels s) :
    EveryStep (StepOf (threadStep globalRetries))
        (fun s label s' => s.OwnerUnlocks label ∧ s'.Exclusive) initial labels ↔
      ∀ thread, (thread, ThreadAction.unlockGuard) ∉ labels := by
  constructor
  · intro hevery thread hmem
    obtain ⟨before, after, rfl⟩ := List.append_of_mem hmem
    obtain ⟨middle, hbefore, hafter⟩ := hrun.exists_of_append
    obtain ⟨next, hstep, -⟩ := hafter.exists_of_cons
    have howner := (hevery before after _ middle next rfl hbefore hstep).1 (.inr rfl)
    have hinv : middle.HolderInside :=
      hbefore.invariant (fun _ _ _ hinv hstep => hinv.step hstep) holderInside_initial
    exact hinv.not_holder_of_unlockGuard hstep howner
  · intro hnone before after label middle next hlabels hbefore hstep
    have hno : ∀ l ∈ before ++ [label], l.2 ≠ .unlockGuard := by
      rintro ⟨thread, action⟩ hmem rfl
      refine hnone thread ?_
      rw [hlabels, List.append_cons]
      exact List.mem_append_left _ hmem
    have hinv : middle.Held := by
      apply held_of_free (hbefore.guarded _)
      intro l hl s hguard
      exact absurd hguard (hno l (List.mem_append_left _ hl))
    have hlast : label.2 ≠ .unlockGuard := hno label (by simp)
    refine ⟨?_, (hinv.step (fun hguard => absurd hguard hlast) hstep).exclusive⟩
    rintro (hunlock | hguard)
    · obtain ⟨pc, hnext, -, -⟩ := threadStep_cases hstep
      rw [hunlock] at hnext
      exact hinv label.1 (ThreadPc.inside_of_unlock hnext).1
    · exact absurd hguard hlast

/-- Two threads, the second of which locks the mutex after the first one's own unlock. -/
theorem exclusion_two_threads :
    EveryStep (StepOf (threadStep 20)) (fun s label s' => s.OwnerUnlocks label ∧ s'.Exclusive)
      initial
      [(0, .send), (1, .send), (0, .lock), (0, .build), (0, .write), (0, .receive true),
        (0, .unlock), (1, .lock), (1, .build), (1, .write), (1, .receive true), (1, .unlock)] :=
  (exclusion_iff 20 _ _ (run_iff_exec.mpr rfl)).mpr (by simp)

/-- Thread `1` locks the mutex between the two unlocks of thread `0`, whose second unlock
lets thread `2` in. -/
theorem two_exchanges_at_once :
    ∃ s, Run (StepOf (threadStep 20)) initial
        [(0, .send), (1, .send), (2, .send), (0, .lock), (0, .build), (0, .write),
          (0, .receive true), (0, .unlock), (1, .lock), (1, .build), (0, .unlockGuard),
          (2, .lock)] s ∧
      ¬ s.Exclusive := by
  refine ⟨_, run_iff_exec.mpr rfl, fun hexclusive => ?_⟩
  exact absurd (hexclusive 1 2 trivial trivial) (by decide)

end Handler

end XbeeAssignment.XBee
