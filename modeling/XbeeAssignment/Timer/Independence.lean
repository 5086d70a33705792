import XbeeAssignment.Lib.Transition
import XbeeAssignment.Timer.Vtmr
import Mathlib.Algebra.Order.Field.Basic
import Mathlib.Data.Nat.Cast.Order.Ring

/-!
# Timer objects are independent

A program constructs `Timer` objects, each in memory with some contents, and
calls their functions between the ticks of the one counter they share.  What an
object should answer is said by `SingleTimer`, which knows the object's own calls
and the number of ticks only.

`Represents` ties an object's struct to a single timer, and every call keeps it
(`Represents.call`).  What does not establish it is the default constructor:
`Initialize` clears the struct in its first call only, so that every later object
starts with whatever its memory held.  It is a timer that was never set exactly if
that memory reads as one, `ClearedFor`.
-/

namespace XbeeAssignment.Timer

open Transition

/-! ## Calls and the single timer -/

inductive Call
  | set (value : ℚ)
  | timeout
  | remain
  | elapsed

namespace Call

/-- The call arms or disarms the timer. -/
def sets : Call → Bool
  | .set _ => true
  | _ => false

/-- The call asks whether the timer has expired. -/
def polls : Call → Bool
  | .timeout | .remain => true
  | _ => false

end Call

/-- What a call returns. -/
inductive Reply
  | void
  | int (value : ℤ)
  | double (value : ℚ)

/-- One timer on its own. -/
inductive SingleTimer
  | unset
  | never (start : ℕ)
  | armed (start deadline : ℕ)
  | expired (start : ℕ)

namespace SingleTimer

/-- Where the counter stands after so many ticks. -/
def counter (ticks : ℕ) : ℕ := ticks % 2 ^ 31

/-- The deadline of a timer set at `start`, with the conversions of C. -/
def deadline (toInt : ℚ → Int32) (start : ℕ) (value : ℚ) : ℕ :=
  ((start + (toInt ((if value < vtmrMaxTimeout then value else vtmrMaxTimeout) * timerFreq)).toInt)
    % 2 ^ 32).toNat

/-- The counter continued beyond its period for a timer set at `start`. -/
def now (start ticks : ℕ) : ℕ :=
  WrapCounter.unwrap (2 ^ 31) start (counter ticks)

/-- The timer that was set at `start`. -/
def setAt (toInt : ℚ → Int32) (start : ℕ) (value : ℚ) : SingleTimer :=
  if value = -1 then .never start else .armed start (deadline toInt start value)

/-- What asking for expiry does: a timer that was never set has expired. -/
def poll (ticks : ℕ) : SingleTimer → SingleTimer
  | .unset => .expired 0
  | .armed start deadline =>
      if now start ticks < deadline then .armed start deadline else .expired start
  | t => t

/-- What `Timeout` answers for a timer that was asked for expiry. -/
def timeoutReply : SingleTimer → Reply
  | .expired _ => .int 1
  | _ => .int 0

/-- What `Remain` answers for a timer that was asked for expiry. -/
def remainReply (ticks : ℕ) : SingleTimer → Reply
  | .armed start deadline => .double (((deadline : ℚ) - (now start ticks : ℚ)) / timerFreq)
  | .never _ => .double (-1)
  | _ => .double 0

def elapsedReply (ticks : ℕ) : SingleTimer → Reply
  | .unset => .double (-1)
  | .never start | .armed start _ | .expired start =>
      .double (((counter ticks : ℚ) - (start : ℚ)) / timerFreq)

/-- A call, after so many ticks. -/
def call (toInt : ℚ → Int32) (ticks : ℕ) : Call → SingleTimer → Reply × SingleTimer
  | .set value, _ => (.void, setAt toInt (counter ticks) value)
  | .timeout, t => ((t.poll ticks).timeoutReply, t.poll ticks)
  | .remain, t => ((t.poll ticks).remainReply ticks, t.poll ticks)
  | .elapsed, t => (t.elapsedReply ticks, t)

end SingleTimer

/-! ## The process -/

/-- A call on an object, the ticks before it, and its reply. -/
structure Entry where
  call : Call
  ticks : ℕ
  reply : Reply

/-- The single timer gives the reply of the entry. -/
def SingleTimer.Answers (toInt : ℚ → Int32) (t : SingleTimer) (entry : Entry) (t' : SingleTimer) :
    Prop :=
  t.call toInt entry.ticks entry.call = (entry.reply, t')

variable {long : LongWidth} {toInt : ℚ → Int32}

/-- The code's reply to a call, and the struct it leaves. -/
def callTimer (toInt : ℚ → Int32) (statics : Statics) (timer : Vtmr long) :
    Call → Reply × Vtmr long
  | .set value => (.void, set toInt statics value timer)
  | .timeout => (.int (timeout statics timer).1, (timeout statics timer).2)
  | .remain => (.double (remain statics timer).1, (remain statics timer).2)
  | .elapsed => (.double (elapsed statics timer), timer)

/-- An object and the calls on it so far, `Timer(double)` counting as a call of `Set`. -/
structure TimerObject (long : LongWidth) where
  timer : Vtmr long
  history : List Entry

/-- The static members, the ticks since they were set up, and the objects in the order of their
construction. -/
structure Process (long : LongWidth) where
  statics : Statics
  ticks : ℕ
  objects : List (TimerObject long)

inductive ProcessEvent (long : LongWidth)
  /-- `Timer()` in memory that holds some struct. -/
  | construct (memory : Vtmr long)
  /-- `Timer(double)` in memory that holds some struct. -/
  | constructSet (memory : Vtmr long) (value : ℚ)
  | call (object : ℕ) (call : Call)
  | tick

/-- The event is a default construction. -/
def ProcessEvent.constructs : ProcessEvent long → Bool
  | .construct _ => true
  | _ => false

/-- A call on an object that is logged with it. -/
def TimerObject.call (toInt : ℚ → Int32) (statics : Statics) (ticks : ℕ) (object : TimerObject long)
    (call : Call) : TimerObject long :=
  { timer := (callTimer toInt statics object.timer call).2
    history := object.history ++ [⟨call, ticks, (callTimer toInt statics object.timer call).1⟩] }

namespace Process

/-- Before the first constructor runs. -/
def start : Process long :=
  { statics := .zero, ticks := 0, objects := [] }

/-- One constructor, one call, or one tick of the thread the first constructor starts. -/
def next (toInt : ℚ → Int32) (p : Process long) : ProcessEvent long → Option (Process long)
  | .construct memory =>
      let initialized := initializeTimer p.statics memory
      some { p with statics := initialized.1
                    objects := p.objects ++ [⟨initialized.2, []⟩] }
  | .constructSet memory value =>
      let initialized := initializeTimer p.statics memory
      some { p with statics := initialized.1
                    objects := p.objects ++
                      [TimerObject.call toInt initialized.1 p.ticks ⟨initialized.2, []⟩
                        (.set value)] }
  | .call object call =>
      if h : object < p.objects.length then
        some { p with objects :=
                        p.objects.set object ((p.objects.get ⟨object, h⟩).call toInt p.statics
                          p.ticks call) }
      else none
  | .tick =>
      if p.statics.initialized then
        some { p with statics := { p.statics with monotonic := tick p.statics.monotonic }
                      ticks := p.ticks + 1 }
      else none

/-- Every object answers as a single timer, and one that was never set reports `-1` as elapsed
until it is polled, and expiry when it is. -/
def Independent (toInt : ℚ → Int32) (p : Process long) : Prop :=
  ∀ object ∈ p.objects,
    (∃ t, Run (SingleTimer.Answers toInt) .unset object.history t) ∧
      ((∀ entry ∈ object.history, entry.call.sets = false) →
        (timeout p.statics object.timer).1 = 1 ∧
          ((∀ entry ∈ object.history, entry.call.polls = false) →
            elapsed p.statics object.timer = -1))

/-- A default construction is the first construction, or its memory holds the mode of a timer
that was not set and the start zero. -/
def ClearedFor (p : Process long) : ProcessEvent long → Prop
  | .construct memory =>
      p.statics.initialized = false ∨
        (memory.mode = VtmrMode.uninitialized ∧ memory.start = 0)
  | _ => True

instance (p : Process long) (event : ProcessEvent long) : Decidable (p.ClearedFor event) := by
  cases event <;> unfold ClearedFor <;> infer_instance

end Process

/-! ## One call -/

/-- The static members after so many ticks. -/
structure Statics.After (statics : Statics) (ticks : ℕ) : Prop where
  initialized : statics.initialized = true
  monotonic : statics.monotonic.toNat = SingleTimer.counter ticks
  ticsPerSec : statics.ticsPerSec = timerFreq

/-- The struct of an object holds a single timer. -/
def Represents (timer : Vtmr long) : SingleTimer → Prop
  | .unset => timer.mode = VtmrMode.uninitialized ∧ timer.start.toNat = 0
  | .never start => timer.mode = VtmrMode.never ∧ timer.start.toNat = start
  | .armed start deadline =>
      timer.mode = VtmrMode.active ∧ timer.start.toNat = start ∧ timer.timeout.toNat = deadline
  | .expired start => timer.mode = VtmrMode.done ∧ timer.start.toNat = start

section

variable {statics : Statics} {ticks : ℕ} {timer : Vtmr long} {t : SingleTimer}

theorem Statics.After.monotonic_lt (h : statics.After ticks) :
    statics.monotonic.toNat < 2 ^ 31 := by
  rw [h.monotonic]
  exact Nat.mod_lt _ (by omega)

theorem represents_set (hstatics : statics.After ticks) (value : ℚ) (timer : Vtmr long) :
    Represents (set toInt statics value timer)
      (SingleTimer.setAt toInt (SingleTimer.counter ticks) value) := by
  have hstart : (long.widen statics.monotonic).toNat = SingleTimer.counter ticks := by
    rw [LongWidth.toNat_widen, hstatics.monotonic]
  unfold set SingleTimer.setAt
  by_cases hnever : value = -1
  · rw [if_pos hnever, if_pos hnever]
    exact ⟨rfl, hstart⟩
  · rw [if_neg hnever, if_neg hnever]
    refine ⟨rfl, hstart, ?_⟩
    simp only [LongWidth.toNat_widen]
    rw [toNat_add_toUInt32, hstatics.monotonic, tics, hstatics.ticsPerSec]
    rfl

/-- The counter a poll compares with the deadline. -/
theorem toNat_unwrapNow_of_start (hstatics : statics.After ticks) {start : ℕ}
    (hstart : timer.start.toNat = start) :
    (unwrapNow statics timer).toNat = SingleTimer.now start ticks := by
  rw [toNat_unwrapNow hstatics.monotonic_lt, hstart, hstatics.monotonic]
  rfl

theorem Represents.timeout (h : Represents timer t) (hstatics : statics.After ticks) :
    Represents (Timer.timeout statics timer).2 (t.poll ticks) ∧
      (t.poll ticks).timeoutReply = .int (Timer.timeout statics timer).1 := by
  cases t with
  | unset =>
      rw [timeout_of_uninitialized h.1]
      exact ⟨⟨rfl, h.2⟩, rfl⟩
  | never start =>
      rw [timeout_of_never h.1]
      exact ⟨h, rfl⟩
  | armed start deadline =>
      obtain ⟨hmode, hstart, hdeadline⟩ := h
      rw [timeout_of_active hmode, toNat_unwrapNow_of_start hstatics hstart, hdeadline,
        SingleTimer.poll]
      by_cases hlt : SingleTimer.now start ticks < deadline
      · rw [if_pos hlt, if_pos hlt]
        exact ⟨⟨hmode, hstart, hdeadline⟩, rfl⟩
      · rw [if_neg hlt, if_neg hlt]
        exact ⟨⟨rfl, hstart⟩, rfl⟩
  | expired start =>
      rw [timeout_of_done h.1]
      exact ⟨h, rfl⟩

theorem Represents.remain (h : Represents timer t) (hstatics : statics.After ticks) :
    Represents (Timer.remain statics timer).2 (t.poll ticks) ∧
      (t.poll ticks).remainReply ticks = .double (Timer.remain statics timer).1 := by
  cases t with
  | unset =>
      rw [remain_of_uninitialized h.1]
      exact ⟨⟨rfl, h.2⟩, rfl⟩
  | never start =>
      rw [remain_of_never h.1]
      exact ⟨h, rfl⟩
  | armed start deadline =>
      obtain ⟨hmode, hstart, hdeadline⟩ := h
      rw [remain_of_active hmode, toNat_unwrapNow_of_start hstatics hstart, hdeadline,
        hstatics.ticsPerSec, SingleTimer.poll]
      by_cases hlt : SingleTimer.now start ticks < deadline
      · rw [if_pos hlt, if_pos hlt]
        exact ⟨⟨hmode, hstart, hdeadline⟩, rfl⟩
      · rw [if_neg hlt, if_neg hlt]
        exact ⟨⟨rfl, hstart⟩, rfl⟩
  | expired start =>
      rw [remain_of_done h.1]
      exact ⟨h, rfl⟩

/-- What `Elapsed` answers for a timer that counts as set. -/
theorem elapsed_of_ne (hstatics : statics.After ticks)
    (hmode : timer.mode ≠ VtmrMode.uninitialized) :
    elapsed statics timer =
      ((SingleTimer.counter ticks : ℚ) - (timer.start.toNat : ℚ)) / timerFreq := by
  rw [elapsed, if_neg hmode, hstatics.monotonic, hstatics.ticsPerSec]

theorem Represents.elapsed (h : Represents timer t) (hstatics : statics.After ticks) :
    t.elapsedReply ticks = .double (Timer.elapsed statics timer) := by
  cases t with
  | unset =>
      rw [Timer.elapsed, if_pos h.1]
      rfl
  | never start =>
      obtain ⟨hmode, hstart⟩ := h
      rw [elapsed_of_ne hstatics (mode_ne hmode VtmrMode.never_ne_uninitialized), hstart]
      rfl
  | expired start =>
      obtain ⟨hmode, hstart⟩ := h
      rw [elapsed_of_ne hstatics (mode_ne hmode VtmrMode.done_ne_uninitialized), hstart]
      rfl
  | armed start deadline =>
      obtain ⟨hmode, hstart, -⟩ := h
      rw [elapsed_of_ne hstatics (mode_ne hmode VtmrMode.active_ne_uninitialized), hstart]
      rfl

/-- **One call.**  The code answers as the single timer does, and leaves what it leaves. -/
theorem Represents.call (toInt : ℚ → Int32) (h : Represents timer t)
    (hstatics : statics.After ticks) (call : Call) :
    Represents (callTimer toInt statics timer call).2 (t.call toInt ticks call).2 ∧
      (t.call toInt ticks call).1 = (callTimer toInt statics timer call).1 := by
  cases call with
  | set value => exact ⟨represents_set hstatics value timer, rfl⟩
  | timeout => exact h.timeout hstatics
  | remain => exact h.remain hstatics
  | elapsed => exact ⟨h, h.elapsed hstatics⟩

end

/-! ## Runs of a process -/

/-- The object's calls were answered as by a single timer, which its struct now holds. -/
def TimerObject.Follows (toInt : ℚ → Int32) (object : TimerObject long) : Prop :=
  ∃ t, Run (SingleTimer.Answers toInt) .unset object.history t ∧ Represents object.timer t

theorem TimerObject.Follows.call {object : TimerObject long} (h : object.Follows toInt)
    {statics : Statics} {ticks : ℕ} (hstatics : statics.After ticks) (call : Call) :
    (object.call toInt statics ticks call).Follows toInt := by
  obtain ⟨t, hrun, hrep⟩ := h
  obtain ⟨hrep', hreply⟩ := hrep.call toInt hstatics call
  refine ⟨_, hrun.append (.cons ?_ (.nil _)), hrep'⟩
  exact Prod.ext hreply rfl

namespace Process

variable {p q : Process long} {event : ProcessEvent long}

/-- The counter counts the ticks, from the first constructor on, and every object follows a
single timer. -/
structure Follows (toInt : ℚ → Int32) (p : Process long) : Prop where
  statics : (p.statics.initialized = false ∧ p.ticks = 0) ∨ p.statics.After p.ticks
  started : p.statics.initialized = false → p.objects = []
  objects : ∀ object ∈ p.objects, object.Follows toInt

theorem start_follows : (start : Process long).Follows toInt where
  statics := .inl ⟨rfl, rfl⟩
  started := fun _ => rfl
  objects := by
    intro object hmem
    cases hmem

/-- Once a constructor has run, each object that follows a single timer is all there is to show. -/
theorem follows_of_after (hstatics : p.statics.After p.ticks)
    (hobjects : ∀ object ∈ p.objects, object.Follows toInt) : p.Follows toInt where
  statics := .inr hstatics
  started := by
    intro hfirst
    rw [hstatics.initialized] at hfirst
    cases hfirst
  objects := hobjects

theorem Follows.after (h : p.Follows toInt) (hinitialized : p.statics.initialized = true) :
    p.statics.After p.ticks := by
  rcases h.statics with ⟨hfirst, -⟩ | hafter
  · rw [hinitialized] at hfirst
    cases hfirst
  · exact hafter

/-- What `Initialize` leaves in the static members. -/
theorem initializeTimer_after
    (h : (p.statics.initialized = false ∧ p.ticks = 0) ∨ p.statics.After p.ticks)
    (memory : Vtmr long) : (initializeTimer p.statics memory).1.After p.ticks := by
  unfold initializeTimer
  rcases h with ⟨hfirst, hticks⟩ | hafter
  · rw [hfirst, hticks]
    exact { initialized := rfl, monotonic := rfl, ticsPerSec := rfl }
  · rw [if_pos hafter.initialized]
    exact hafter

/-- `Initialize` leaves a timer that was never set if the memory is cleared, or by clearing it. -/
theorem initializeTimer_represents {memory : Vtmr long}
    (hcleared : p.ClearedFor (.construct memory)) :
    Represents (initializeTimer p.statics memory).2 .unset := by
  unfold initializeTimer
  rcases hcleared with hfirst | ⟨hmode, hstart⟩
  · rw [hfirst]
    exact ⟨rfl, rfl⟩
  · split
    · exact ⟨hmode, by rw [hstart]; rfl⟩
    · exact ⟨rfl, rfl⟩

/-- `Set` makes a timer of any struct, so that what memory held does not matter to
`Timer(double)`. -/
theorem set_follows {statics : Statics} {ticks : ℕ} (hstatics : statics.After ticks)
    (timer : Vtmr long) (value : ℚ) :
    (TimerObject.call toInt statics ticks ⟨timer, []⟩ (.set value)).Follows toInt :=
  ⟨_, .cons rfl (.nil _), represents_set hstatics value timer⟩

theorem Follows.step (h : p.Follows toInt) (hcleared : p.ClearedFor event)
    (hstep : p.next toInt event = some q) : q.Follows toInt := by
  cases event with
  | construct memory =>
      cases hstep
      refine follows_of_after (initializeTimer_after h.statics memory) ?_
      intro object hmem
      rcases List.mem_append.mp hmem with hold | hnew
      · exact h.objects object hold
      · obtain rfl := List.mem_singleton.mp hnew
        exact ⟨.unset, .nil _, initializeTimer_represents hcleared⟩
  | constructSet memory value =>
      cases hstep
      have hafter := initializeTimer_after h.statics memory
      refine follows_of_after hafter ?_
      intro object hmem
      rcases List.mem_append.mp hmem with hold | hnew
      · exact h.objects object hold
      · obtain rfl := List.mem_singleton.mp hnew
        exact set_follows hafter _ value
  | call index call =>
      simp only [next] at hstep
      split at hstep
      · next hindex =>
          cases hstep
          -- there is an object, so the first constructor has run
          have hafter : p.statics.After p.ticks := by
            rcases h.statics with ⟨hfirst, -⟩ | hafter
            · rw [h.started hfirst] at hindex
              exact absurd hindex (Nat.not_lt_zero _)
            · exact hafter
          refine follows_of_after hafter ?_
          intro object hmem
          rcases List.mem_or_eq_of_mem_set hmem with hold | rfl
          · exact h.objects object hold
          · exact (h.objects _ (List.getElem_mem hindex)).call hafter call
      · cases hstep
  | tick =>
      simp only [next] at hstep
      split at hstep
      · next hinitialized =>
          cases hstep
          have hafter := h.after hinitialized
          refine follows_of_after ?_ h.objects
          exact { initialized := hafter.initialized,
                  monotonic := toNat_tick_of_mod hafter.monotonic,
                  ticsPerSec := hafter.ticsPerSec }
      · cases hstep

theorem Follows.run {events : List (ProcessEvent long)} (h : p.Follows toInt)
    (hrun : Run (Guarded ClearedFor (StepOf (next toInt))) p events q) : q.Follows toInt := by
  apply hrun.invariant _ h
  intro p event q h hstep
  exact h.step hstep.1 hstep.2

/-! ### A timer that was never set -/

/-- A single timer that was never set is unset, and expired once it was polled. -/
theorem unset_of_run {history : List Entry} {t t' : SingleTimer}
    (hrun : Run (SingleTimer.Answers toInt) t history t')
    (hsets : ∀ entry ∈ history, entry.call.sets = false) :
    (t = .unset → (∀ entry ∈ history, entry.call.polls = false) → t' = .unset) ∧
      (t = .unset ∨ t = .expired 0 → t' = .unset ∨ t' = .expired 0) := by
  induction hrun with
  | nil t => exact ⟨fun ht _ => ht, id⟩
  | @cons t m t' entry history hstep _ ih =>
      obtain ⟨ihUnset, ihEither⟩ := ih fun entry hmem => hsets entry (List.mem_cons_of_mem _ hmem)
      have hset := hsets entry (List.mem_cons_self ..)
      have hm : m = (t.call toInt entry.ticks entry.call).2 := by rw [hstep]
      constructor
      · rintro rfl hpolls
        refine ihUnset ?_ fun entry hmem => hpolls entry (List.mem_cons_of_mem _ hmem)
        have hpoll := hpolls entry (List.mem_cons_self ..)
        rw [hm]
        cases hcall : entry.call with
        | set value => rw [hcall] at hset; cases hset
        | timeout | remain => rw [hcall] at hpoll; cases hpoll
        | elapsed => rfl
      · intro ht
        apply ihEither
        rw [hm]
        cases hcall : entry.call with
        | set value => rw [hcall] at hset; cases hset
        | timeout | remain => rcases ht with rfl | rfl <;> exact .inr rfl
        | elapsed => exact ht

theorem Follows.independent (h : p.Follows toInt) : p.Independent toInt := by
  intro object hmem
  obtain ⟨t, hrun, hrep⟩ := h.objects object hmem
  refine ⟨⟨t, hrun⟩, fun hsets => ⟨?_, fun hpolls => ?_⟩⟩
  · rcases (unset_of_run hrun hsets).2 (.inl rfl) with rfl | rfl
    · rw [timeout_of_uninitialized hrep.1]
    · rw [timeout_of_done hrep.1]
  · obtain rfl := (unset_of_run hrun hsets).1 rfl hpolls
    rw [elapsed, if_pos hrep.1]

/-! ### Memory that is not cleared -/

/-- A poll keeps the start and leaves a timer that counts as set. -/
theorem timeout_keeps (statics : Statics) (timer : Vtmr long) :
    (timeout statics timer).2.start = timer.start ∧
      (timeout statics timer).2.mode ≠ VtmrMode.uninitialized := by
  have hdone := VtmrMode.done_ne_uninitialized
  by_cases hmode : timer.mode = VtmrMode.uninitialized
  · rw [timeout_of_uninitialized hmode]
    exact ⟨rfl, hdone⟩
  · unfold timeout
    rw [settle_of_ne hmode]
    dsimp only
    split
    · exact ⟨rfl, hmode⟩
    split
    · exact ⟨rfl, hmode⟩
    split
    · exact ⟨rfl, hmode⟩
    · exact ⟨rfl, hdone⟩

/-- If `Elapsed`, `Timeout` and `Elapsed` answer as for a timer that was never set, then the
struct is one. -/
theorem cleared_of_answers {statics : Statics} {ticks : ℕ} (hstatics : statics.After ticks)
    {timer : Vtmr long} {t : SingleTimer}
    (hrun : Run (SingleTimer.Answers toInt) .unset
      (((TimerObject.call toInt statics ticks ⟨timer, []⟩ .elapsed).call toInt statics ticks
        .timeout).call toInt statics ticks .elapsed).history t) :
    timer.mode = VtmrMode.uninitialized ∧ timer.start = 0 := by
  obtain ⟨m₁, hfirst, hrun⟩ := hrun.exists_of_cons
  obtain ⟨m₂, hsecond, hrun⟩ := hrun.exists_of_cons
  obtain ⟨m₃, hthird, -⟩ := hrun.exists_of_cons
  obtain ⟨hunpolled, hm₁⟩ := Prod.mk.inj hfirst
  subst hm₁
  obtain ⟨-, hm₂⟩ := Prod.mk.inj hsecond
  subst hm₂
  obtain ⟨hpolled, -⟩ := Prod.mk.inj hthird
  have hunpolled : -1 = elapsed statics timer := Reply.double.inj hunpolled
  have hpolled : ((SingleTimer.counter ticks : ℚ) - ((0 : ℕ) : ℚ)) / timerFreq =
      elapsed statics (timeout statics timer).2 := Reply.double.inj hpolled
  have hfreq : (0 : ℚ) < timerFreq := by decide
  obtain ⟨hstart, hmode⟩ := timeout_keeps statics timer
  -- after a poll `Elapsed` is the time since the start of the counter
  have hzero : timer.start.toNat = 0 := by
    rw [elapsed_of_ne hstatics hmode, hstart, div_left_inj' hfreq.ne', sub_right_inj] at hpolled
    exact (Nat.cast_injective hpolled).symm
  refine ⟨?_, BitVec.eq_of_toNat_eq (by rw [hzero]; rfl)⟩
  by_contra hset
  rw [elapsed_of_ne hstatics hset, hzero, Nat.cast_zero, sub_zero] at hunpolled
  have hnonneg : (0 : ℚ) ≤ (SingleTimer.counter ticks : ℚ) / timerFreq :=
    div_nonneg (Nat.cast_nonneg _) hfreq.le
  rw [← hunpolled] at hnonneg
  exact absurd hnonneg (by decide)

/-- A call on the object constructed last. -/
theorem next_call_last (p : Process long) (objects : List (TimerObject long))
    (object : TimerObject long) (call : Call) :
    next toInt { p with objects := objects ++ [object] } (.call objects.length call) =
      some { p with objects := objects ++ [object.call toInt p.statics p.ticks call] } := by
  simp [next]

/-- A construction that is not cleared shows in the answers to three calls. -/
theorem Follows.cleared_of_independent (h : p.Follows toInt) {memory : Vtmr long}
    (hindependent : ∀ q, Run (StepOf (next toInt)) p
      [.construct memory, .call p.objects.length .elapsed, .call p.objects.length .timeout,
        .call p.objects.length .elapsed] q → q.Independent toInt) :
    p.ClearedFor (.construct memory) := by
  rcases h.statics with ⟨hfirst, -⟩ | hafter
  · exact .inl hfirst
  · have hkeeps : initializeTimer p.statics memory = (p.statics, memory) := by
      rw [initializeTimer, if_pos hafter.initialized]
    have hconstruct : next toInt p (.construct memory) =
        some { p with objects := p.objects ++ [⟨memory, []⟩] } := by
      simp only [next, hkeeps]
    obtain ⟨⟨t, hrun⟩, -⟩ := hindependent _
      (.cons hconstruct (.cons (next_call_last ..) (.cons (next_call_last ..)
        (.cons (next_call_last ..) (.nil _)))))
      _ (List.mem_append_right _ (List.mem_singleton.mpr rfl))
    exact .inr (cleared_of_answers hafter hrun)

/-! ### Independence -/

/-- **Independence.**  In a run whose default constructions are cleared every object answers as a
single timer.  A further default construction keeps that up, whatever is called later, exactly if
it is cleared. -/
theorem independent_of_cleared (long : LongWidth) (toInt : ℚ → Int32)
    (events : List (ProcessEvent long)) (p : Process long)
    (hrun : Run (Guarded ClearedFor (StepOf (next toInt))) start events p) :
    p.Independent toInt ∧
      ∀ memory, p.ClearedFor (.construct memory) ↔
        ∀ calls q, (∀ event ∈ calls, event.constructs = false) →
          Run (StepOf (next toInt)) p (.construct memory :: calls) q → q.Independent toInt := by
  have h : p.Follows toInt := start_follows.run hrun
  refine ⟨h.independent, fun memory => ⟨fun hcleared calls q hcalls hrun => ?_, fun hall => ?_⟩⟩
  · obtain ⟨m, hconstruct, hrest⟩ := hrun.exists_of_cons
    have hm : m.Follows toInt := h.step hcleared hconstruct
    refine (hm.run (hrest.guarded fun event hmem m => ?_)).independent
    -- no later call is a default construction
    have hcall := hcalls event hmem
    cases event with
    | construct memory => cases hcall
    | constructSet memory value | call object call | tick => trivial
  · refine h.cleared_of_independent fun q hrun => hall _ q ?_ hrun
    intro event hmem
    simp only [List.mem_cons, List.not_mem_nil, or_false] at hmem
    rcases hmem with rfl | rfl | rfl <;> rfl

/-- Two timers that were never set, the second one in cleared memory. -/
theorem independent_of_cleared_two :
    ∃ p, Run (Guarded ClearedFor (StepOf (next fun _ => 0))) (start : Process .bits64)
        [.construct { mode := 7, start := 5, timeout := 5 },
          .construct { mode := 0, start := 0, timeout := 5 }, .tick, .call 1 .elapsed,
          .call 1 .timeout] p ∧
      p.Independent fun _ => 0 := by
  have hrun : Run (Guarded ClearedFor (StepOf (next fun _ => 0))) (start : Process .bits64)
      [.construct { mode := 7, start := 5, timeout := 5 },
        .construct { mode := 0, start := 0, timeout := 5 }, .tick, .call 1 .elapsed,
        .call 1 .timeout] _ := run_guarded_iff_exec.mpr rfl
  exact ⟨_, hrun, (independent_of_cleared .bits64 (fun _ => 0) _ _ hrun).1⟩

/-- The second timer that was never set finds the mode of an active one in its memory, and
reports that no time has elapsed since it was set. -/
theorem not_independent_second :
    ∃ p, Run (StepOf (next fun _ => 0)) (start : Process .bits64)
        [.construct { mode := 0, start := 0, timeout := 0 },
          .construct { mode := 1, start := 0, timeout := 0 }] p ∧
      ¬ p.Independent fun _ => 0 := by
  refine ⟨_, run_iff_exec.mpr rfl, fun hindependent => ?_⟩
  have hsecond := hindependent _ (List.mem_cons_of_mem _ (List.mem_cons_self ..))
  have helapsed : (((0 : ℕ) : ℚ) - ((0 : ℕ) : ℚ)) / timerFreq = -1 :=
    (hsecond.2 (fun entry hmem => by cases hmem)).2 fun entry hmem => by cases hmem
  rw [sub_self, zero_div] at helapsed
  exact absurd helapsed (by decide)

end Process

end XbeeAssignment.Timer
