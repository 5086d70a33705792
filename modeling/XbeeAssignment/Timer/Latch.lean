import XbeeAssignment.Timer.Expiry
import Mathlib.Data.List.DropRight

/-!
# An armed timer over any number of ticks

The expiry of a timer is not an event: `Timeout` and `Remain` compare the counter when
they are called, and only a poll that finds the timer expired is remembered.  The
counter they compare has forgotten the periods since `Set`, so that a poll after `e`
ticks reports expiry if the duration is no longer than `e` modulo a period, or if an
earlier poll has done so (`Reported`, `expiry_latched`).

A timer that is polled too rarely can hence miss its own expiry.  It cannot if no two
polls, nor `Set` and the first, are more than a period less the duration apart
(`expiry_of_often`): the first poll after the duration then comes within the period.
-/

namespace XbeeAssignment.Timer

open Transition

def TimerEvent.isTick : TimerEvent → Bool
  | .tick => true
  | .timeout | .remain => false

namespace Polling

/-- The ticks among the events. -/
def ticksIn (events : List TimerEvent) : ℕ :=
  events.countP TimerEvent.isTick

/-- A poll among the events comes after so many ticks that it reports a timer of `d` ticks. -/
def Reported (d : ℕ) (events : List TimerEvent) : Prop :=
  ∃ before event after, events = before ++ event :: after ∧ event.isTick = false ∧
    d ≤ ticksIn before % 2 ^ 31

theorem ticksIn_concat (events : List TimerEvent) (event : TimerEvent) :
    ticksIn (events ++ [event]) = ticksIn events + if event.isTick then 1 else 0 := by
  unfold ticksIn
  rw [List.countP_append, List.countP_singleton]

theorem not_reported_nil (d : ℕ) : ¬ Reported d [] := by
  rintro ⟨before, event, after, hevents, -, -⟩
  simp at hevents

/-- The last event is one more poll, or none. -/
theorem reported_concat {d : ℕ} {events : List TimerEvent} {event : TimerEvent} :
    Reported d (events ++ [event]) ↔
      Reported d events ∨ (event.isTick = false ∧ d ≤ ticksIn events % 2 ^ 31) := by
  constructor
  · rintro ⟨before, poll, after, hevents, hpoll, hle⟩
    rcases List.eq_nil_or_concat' after with rfl | ⟨after, last, rfl⟩
    · obtain ⟨rfl, hlast⟩ := List.append_inj' hevents rfl
      obtain rfl : event = poll := by simpa using hlast
      exact .inr ⟨hpoll, hle⟩
    · rw [← List.cons_append, ← List.append_assoc] at hevents
      exact .inl ⟨before, poll, after, (List.append_inj' hevents rfl).1, hpoll, hle⟩
  · rintro (⟨before, poll, after, rfl, hpoll, hle⟩ | ⟨hpoll, hle⟩)
    · exact ⟨before, poll, after ++ [event], by simp, hpoll, hle⟩
    · exact ⟨events, event, [], rfl, hpoll, hle⟩

theorem reported_tick {d : ℕ} {events : List TimerEvent} :
    Reported d (events ++ [.tick]) ↔ Reported d events := by
  rw [reported_concat]
  simp [TimerEvent.isTick]

/-! ## The invariant -/

variable {long : LongWidth}

/-- The timer was set at `s` for `d` ticks, and is done exactly if one of the polls since has
reported it. -/
structure Latched (s d : ℕ) (events : List TimerEvent) (p : Polling long) : Prop where
  ticsPerSec : p.statics.ticsPerSec = timerFreq
  monotonic : p.statics.monotonic.toNat = (s + ticksIn events) % 2 ^ 31
  start : p.timer.start.toNat = s
  timeout : p.timer.timeout.toNat = s + d
  mode : (p.timer.mode = VtmrMode.active ∧ ¬ Reported d events) ∨
    (p.timer.mode = VtmrMode.done ∧ Reported d events)

variable {s d : ℕ} {events : List TimerEvent} {p : Polling long}

theorem Armed.latched (h : Armed s d p) (helapsed : p.elapsed = 0) (hnone : p.answers = []) :
    Latched s d [] p := by
  refine { ticsPerSec := h.ticsPerSec, monotonic := ?_, start := h.start, timeout := h.timeout,
           mode := .inl ⟨?_, not_reported_nil d⟩ }
  · rw [h.monotonic, helapsed]
    rfl
  · rcases h.mode with ⟨hmode, -⟩ | ⟨-, hreported, -⟩
    · exact hmode
    · rw [hnone] at hreported
      cases hreported

/-- The counter a poll compares has the ticks since the start, less whole periods. -/
theorem Latched.toNat_unwrapNow (h : Latched s d events p) (hs : s < 2 ^ 31) :
    (unwrapNow p.statics p.timer).toNat = s + ticksIn events % 2 ^ 31 := by
  have hlt : p.statics.monotonic.toNat < 2 ^ 31 := by
    rw [h.monotonic]
    exact Nat.mod_lt _ (by omega)
  rw [Timer.toNat_unwrapNow hlt, h.start, h.monotonic, ← Nat.add_mod_mod]
  exact WrapCounter.unwrap_mod hs (Nat.mod_lt _ (by omega))

/-- `Timeout` reports expiry exactly if it is a poll that does, or an earlier one was. -/
theorem Latched.timeout_eq (h : Latched s d events p) (hs : s < 2 ^ 31) :
    (Reported d (events ++ [.timeout]) ∧
        Timer.timeout p.statics p.timer = (1, { p.timer with mode := VtmrMode.done })) ∨
      (¬ Reported d (events ++ [.timeout]) ∧ p.timer.mode = VtmrMode.active ∧
        Timer.timeout p.statics p.timer = (0, p.timer)) := by
  rcases h.mode with ⟨hmode, hnone⟩ | ⟨hmode, hreported⟩
  · rw [timeout_of_active hmode, h.toNat_unwrapNow hs, h.timeout]
    by_cases hexpired : d ≤ ticksIn events % 2 ^ 31
    · refine .inl ⟨reported_concat.mpr (.inr ⟨rfl, hexpired⟩), ?_⟩
      rw [if_neg (by omega)]
    · refine .inr ⟨fun hreported => ?_, hmode, ?_⟩
      · rcases reported_concat.mp hreported with hearlier | ⟨-, hle⟩
        · exact hnone hearlier
        · exact hexpired hle
      · rw [if_pos (by omega)]
  · refine .inl ⟨reported_concat.mpr (.inl hreported), ?_⟩
    rw [timeout_of_done hmode, ← hmode]

/-- `Remain` reports expiry like `Timeout`, and otherwise the rest of the duration. -/
theorem Latched.remain_eq (h : Latched s d events p) (hs : s < 2 ^ 31) :
    (Reported d (events ++ [.remain]) ∧
        Timer.remain p.statics p.timer = (0, { p.timer with mode := VtmrMode.done })) ∨
      (¬ Reported d (events ++ [.remain]) ∧ p.timer.mode = VtmrMode.active ∧
        ticksIn events % 2 ^ 31 < d ∧ Timer.remain p.statics p.timer =
          (((d : ℚ) - ((ticksIn events % 2 ^ 31 : ℕ) : ℚ)) / timerFreq, p.timer)) := by
  rcases h.mode with ⟨hmode, hnone⟩ | ⟨hmode, hreported⟩
  · rw [remain_of_active hmode, h.toNat_unwrapNow hs, h.timeout, h.ticsPerSec]
    by_cases hexpired : d ≤ ticksIn events % 2 ^ 31
    · refine .inl ⟨reported_concat.mpr (.inr ⟨rfl, hexpired⟩), ?_⟩
      rw [if_neg (by omega)]
    · refine .inr ⟨fun hreported => ?_, hmode, not_le.mp hexpired, ?_⟩
      · rcases reported_concat.mp hreported with hearlier | ⟨-, hle⟩
        · exact hnone hearlier
        · exact hexpired hle
      · rw [if_pos (by omega), Nat.cast_add, Nat.cast_add, add_sub_add_left_eq_sub]
  · refine .inl ⟨reported_concat.mpr (.inl hreported), ?_⟩
    rw [remain_of_done hmode, ← hmode]

/-- When `Timeout` reports expiry. -/
theorem Latched.timeout_eq_one_iff (h : Latched s d events p) (hs : s < 2 ^ 31) :
    (Timer.timeout p.statics p.timer).1 = 1 ↔ Reported d (events ++ [.timeout]) := by
  rcases h.timeout_eq hs with ⟨hreported, heq⟩ | ⟨hnone, -, heq⟩
  · rw [heq]
    exact iff_of_true rfl hreported
  · rw [heq]
    exact iff_of_false zero_ne_one hnone

/-- When `Remain` does. -/
theorem Latched.remain_eq_zero_iff (h : Latched s d events p) (hs : s < 2 ^ 31) :
    (Timer.remain p.statics p.timer).1 = 0 ↔ Reported d (events ++ [.remain]) := by
  rcases h.remain_eq hs with ⟨hreported, heq⟩ | ⟨hnone, -, hlt, heq⟩
  · rw [heq]
    exact iff_of_true rfl hreported
  · rw [heq]
    exact iff_of_false (remain_ne_zero hlt) hnone

/-! ## Runs -/

/-- A poll leaves the timer done, or as it is. -/
theorem Latched.poll (h : Latched s d events p) {event : TimerEvent}
    (hpoll : event.isTick = false) {timer : Vtmr long} (answers : List Answer)
    (hcases : (Reported d (events ++ [event]) ∧ timer = { p.timer with mode := VtmrMode.done }) ∨
      (¬ Reported d (events ++ [event]) ∧ p.timer.mode = VtmrMode.active ∧ timer = p.timer)) :
    Latched s d (events ++ [event]) { p with timer := timer, answers := answers } := by
  have hticks : ticksIn (events ++ [event]) = ticksIn events := by
    rw [ticksIn_concat, hpoll]
    rfl
  have hmonotonic := h.monotonic
  rw [← hticks] at hmonotonic
  rcases hcases with ⟨hreported, rfl⟩ | ⟨hnone, hmode, rfl⟩
  · exact { ticsPerSec := h.ticsPerSec, monotonic := hmonotonic, start := h.start,
            timeout := h.timeout, mode := .inr ⟨rfl, hreported⟩ }
  · exact { ticsPerSec := h.ticsPerSec, monotonic := hmonotonic, start := h.start,
            timeout := h.timeout, mode := .inl ⟨hmode, hnone⟩ }

theorem Latched.step (h : Latched s d events p) (hs : s < 2 ^ 31) (event : TimerEvent) :
    Latched s d (events ++ [event]) (p.step event) := by
  cases event with
  | tick =>
      refine { ticsPerSec := h.ticsPerSec, monotonic := ?_, start := h.start,
               timeout := h.timeout, mode := ?_ }
      · rw [ticksIn_concat]
        exact toNat_tick_of_mod h.monotonic
      · rw [reported_tick]
        exact h.mode
  | timeout =>
      refine h.poll rfl _ ?_
      rcases h.timeout_eq hs with ⟨hreported, heq⟩ | ⟨hnone, hmode, heq⟩
      · exact .inl ⟨hreported, congrArg Prod.snd heq⟩
      · exact .inr ⟨hnone, hmode, congrArg Prod.snd heq⟩
  | remain =>
      refine h.poll rfl _ ?_
      rcases h.remain_eq hs with ⟨hreported, heq⟩ | ⟨hnone, hmode, -, heq⟩
      · exact .inl ⟨hreported, congrArg Prod.snd heq⟩
      · exact .inr ⟨hnone, hmode, congrArg Prod.snd heq⟩

/-- The invariant holds in a run of any length. -/
theorem Latched.run {start : ℕ} {p₀ q : Polling long} (h : Latched start d [] p₀)
    (hstart : start < 2 ^ 31) (hrun : Run (StepOf next) p₀ events q) :
    Latched start d events q := by
  refine hrun.history (fun before p event p' hlatched hstep => ?_) h
  cases hstep
  exact hlatched.step hstart event

/-- **Expiry over any number of ticks.**  After any run of ticks and polls, the next poll reports
expiry exactly if it comes, or an earlier one came, after ticks that modulo a period are no fewer
than the duration; otherwise `Remain` returns the duration less these ticks. -/
theorem expiry_latched (long : LongWidth) (toInt : ℚ → Int32) (s : UInt32) (d : ℕ) (value : ℚ)
    (memory : Vtmr long) (hs : s.toNat < 2 ^ 31) (hvalue : value ≠ -1)
    (htics : (tics toInt (.running s) value).toInt = d) (events : List TimerEvent)
    (p : Polling long) (hrun : Run (StepOf next) (armed toInt s value memory) events p) :
    ((Timer.timeout p.statics p.timer).1 = 1 ↔ Reported d (events ++ [.timeout])) ∧
      ((Timer.timeout p.statics p.timer).1 = 0 ↔ ¬ Reported d (events ++ [.timeout])) ∧
      ((Timer.remain p.statics p.timer).1 = 0 ↔ Reported d (events ++ [.remain])) ∧
      (¬ Reported d (events ++ [.remain]) → (Timer.remain p.statics p.timer).1 =
        ((d : ℚ) - ((ticksIn events % 2 ^ 31 : ℕ) : ℚ)) / 1000) := by
  have h : Latched s.toNat d events p :=
    ((armed_armed memory hs hvalue htics).latched rfl rfl).run hs hrun
  refine ⟨h.timeout_eq_one_iff hs, ?_, h.remain_eq_zero_iff hs, ?_⟩
  · rcases h.timeout_eq hs with ⟨hreported, heq⟩ | ⟨hnone, -, heq⟩
    · rw [heq]
      exact iff_of_false one_ne_zero (not_not.mpr hreported)
    · rw [heq]
      exact iff_of_true rfl hnone
  · intro hnone
    rcases h.remain_eq hs with ⟨hreported, -⟩ | ⟨-, -, -, heq⟩
    · exact absurd hreported hnone
    · rw [heq]
      rfl

/-- A timer for two ticks, set one tick before the counter starts over and polled after two. -/
theorem expiry_latched_wrap :
    ∃ p, Run (StepOf next) (armed (fun _ => 2) 0x7FFFFFFF (1 / 500)
        ({ mode := 7, start := 0, timeout := 0 } : Vtmr .bits32)) [.tick, .tick] p ∧
      (Timer.timeout p.statics p.timer).1 = 1 := by
  have hrun : Run (StepOf next) (armed (fun _ => 2) 0x7FFFFFFF (1 / 500)
      ({ mode := 7, start := 0, timeout := 0 } : Vtmr .bits32)) [.tick, .tick] _ :=
    run_iff_exec.mpr rfl
  have hlatched := expiry_latched .bits32 (fun _ => 2) 0x7FFFFFFF 2 (1 / 500)
    { mode := 7, start := 0, timeout := 0 } (by decide) (by norm_num) rfl _ _ hrun
  exact ⟨_, hrun, hlatched.1.mpr ⟨[.tick, .tick], .timeout, [], rfl, rfl, by decide⟩⟩

/-! ## Polling often enough -/

/-- No poll comes more than `gap` ticks after the poll before it, or after the start. -/
def PolledWithin (gap : ℕ) (events : List TimerEvent) : Prop :=
  ∀ before event after, events = before ++ event :: after → event.isTick = false →
    (before.rtakeWhile TimerEvent.isTick).length ≤ gap

/-- A poll among the events comes after `d` ticks or more. -/
def PolledAfter (d : ℕ) (events : List TimerEvent) : Prop :=
  ∃ before event after, events = before ++ event :: after ∧ event.isTick = false ∧
    d ≤ ticksIn before

/-- The ticks since the last poll are the last of them. -/
theorem ticksIn_eq (events : List TimerEvent) :
    ticksIn events = ticksIn (events.rdropWhile TimerEvent.isTick) +
      (events.rtakeWhile TimerEvent.isTick).length := by
  induction events using List.reverseRecOn with
  | nil => rfl
  | append_singleton events event ih =>
      cases htick : event.isTick with
      | true =>
          rw [List.rdropWhile_concat_pos _ _ _ htick, List.rtakeWhile_concat_pos _ _ _ htick,
            ticksIn_concat, htick, ih]
          simp [Nat.add_assoc]
      | false =>
          rw [List.rdropWhile_concat_neg _ _ _ (by simp [htick]),
            List.rtakeWhile_concat_neg _ _ _ (by simp [htick])]
          rfl

/-- Before a first poll after the duration, the last poll came earlier. -/
theorem ticksIn_lastPoll_lt {d : ℕ} {events : List TimerEvent} (hd : 0 < d)
    (hnone : ¬ PolledAfter d events) : ticksIn (events.rdropWhile TimerEvent.isTick) < d := by
  by_cases hnil : events.rdropWhile TimerEvent.isTick = []
  · rw [hnil]
    exact hd
  · obtain ⟨ticks, hticks⟩ := List.rdropWhile_prefix TimerEvent.isTick events
    have hpoll := List.rdropWhile_last_not TimerEvent.isTick events hnil
    have hsplit := List.dropLast_append_getLast hnil
    generalize hlast : (events.rdropWhile TimerEvent.isTick).getLast hnil = last at hpoll hsplit
    rw [← hsplit, ticksIn_concat, if_neg hpoll, Nat.add_zero]
    by_contra hge
    refine hnone ⟨_, last, ticks, ?_, by simpa using hpoll, not_lt.mp hge⟩
    rw [List.append_cons, hsplit, hticks]

theorem polledAfter_of_reported {d : ℕ} {events : List TimerEvent} (h : Reported d events) :
    PolledAfter d events := by
  obtain ⟨before, event, after, hevents, hpoll, hle⟩ := h
  exact ⟨before, event, after, hevents, hpoll, hle.trans (Nat.mod_le _ _)⟩

theorem polledAfter_concat {d : ℕ} {events : List TimerEvent} {event : TimerEvent}
    (h : PolledAfter d (events ++ [event])) :
    PolledAfter d events ∨ (event.isTick = false ∧ d ≤ ticksIn events) := by
  obtain ⟨before, poll, after, hevents, hpoll, hle⟩ := h
  rcases List.eq_nil_or_concat' after with rfl | ⟨after, last, rfl⟩
  · obtain ⟨rfl, hlast⟩ := List.append_inj' hevents rfl
    obtain rfl : event = poll := by simpa using hlast
    exact .inr ⟨hpoll, hle⟩
  · rw [← List.cons_append, ← List.append_assoc] at hevents
    exact .inl ⟨before, poll, after, (List.append_inj' hevents rfl).1, hpoll, hle⟩

theorem PolledWithin.of_concat {gap : ℕ} {events : List TimerEvent} {event : TimerEvent}
    (h : PolledWithin gap (events ++ [event])) : PolledWithin gap events := by
  intro before poll after hevents hpoll
  refine h before poll (after ++ [event]) ?_ hpoll
  rw [hevents, List.append_assoc, List.cons_append]

/-- With polls that close, no expiry is missed. -/
theorem reported_iff_polledAfter {d : ℕ} {events : List TimerEvent} (hd : d ≤ 2 ^ 31)
    (hoften : PolledWithin (2 ^ 31 - d) events) : Reported d events ↔ PolledAfter d events := by
  refine ⟨polledAfter_of_reported, ?_⟩
  induction events using List.reverseRecOn with
  | nil =>
      rintro ⟨before, event, after, hevents, -, -⟩
      simp at hevents
  | append_singleton events event ih =>
      intro hafter
      rw [reported_concat]
      by_cases hearlier : PolledAfter d events
      · exact .inl (ih hoften.of_concat hearlier)
      · -- the first poll after the duration: less than a period has passed
        obtain ⟨hpoll, hle⟩ := (polledAfter_concat hafter).resolve_left hearlier
        refine .inr ⟨hpoll, ?_⟩
        rcases Nat.eq_zero_or_pos d with rfl | hpos
        · exact Nat.zero_le _
        · have hlast := ticksIn_lastPoll_lt hpos hearlier
          have hgap := hoften events event [] rfl hpoll
          have hticks := ticksIn_eq events
          rw [Nat.mod_eq_of_lt (by omega)]
          exact hle

/-- **Polling often enough.**  If the polls of a run are no further apart than a period less the
duration, and the first no further from `Set`, a poll reports expiry exactly if it or an earlier
one comes after the duration, however long the run. -/
theorem expiry_of_often (long : LongWidth) (toInt : ℚ → Int32) (s : UInt32) (d : ℕ) (value : ℚ)
    (memory : Vtmr long) (hs : s.toNat < 2 ^ 31) (hvalue : value ≠ -1)
    (htics : (tics toInt (.running s) value).toInt = d) (events : List TimerEvent)
    (p : Polling long) (hrun : Run (StepOf next) (armed toInt s value memory) events p) :
    (PolledWithin (2 ^ 31 - d) (events ++ [.timeout]) →
        ((Timer.timeout p.statics p.timer).1 = 1 ↔ PolledAfter d (events ++ [.timeout]))) ∧
      (PolledWithin (2 ^ 31 - d) (events ++ [.remain]) →
        ((Timer.remain p.statics p.timer).1 = 0 ↔ PolledAfter d (events ++ [.remain]))) := by
  have hbound := (tics toInt (.running s) value).toInt_lt
  have h : Latched s.toNat d events p :=
    ((armed_armed memory hs hvalue htics).latched rfl rfl).run hs hrun
  refine ⟨fun hoften => ?_, fun hoften => ?_⟩
  · rw [← reported_iff_polledAfter (by omega) hoften]
    exact h.timeout_eq_one_iff hs
  · rw [← reported_iff_polledAfter (by omega) hoften]
    exact h.remain_eq_zero_iff hs

/-- A run that is no longer than the gap. -/
theorem polledWithin_of_length_le {gap : ℕ} {events : List TimerEvent}
    (hlength : events.length ≤ gap) : PolledWithin gap events := by
  rintro before event after rfl -
  have hsuffix := (List.rtakeWhile_suffix TimerEvent.isTick before).length_le
  rw [List.length_append] at hlength
  omega

/-- The same timer, polled once more in between. -/
theorem expiry_of_often_wrap :
    ∃ p, Run (StepOf next) (armed (fun _ => 2) 0x7FFFFFFF (1 / 500)
        ({ mode := 7, start := 0, timeout := 0 } : Vtmr .bits32)) [.tick, .remain, .tick] p ∧
      (Timer.timeout p.statics p.timer).1 = 1 ∧ (Timer.remain p.statics p.timer).1 = 0 := by
  have hrun : Run (StepOf next) (armed (fun _ => 2) 0x7FFFFFFF (1 / 500)
      ({ mode := 7, start := 0, timeout := 0 } : Vtmr .bits32)) [.tick, .remain, .tick] _ :=
    run_iff_exec.mpr rfl
  obtain ⟨htimeout, hremain⟩ := expiry_of_often .bits32 (fun _ => 2) 0x7FFFFFFF 2 (1 / 500)
    { mode := 7, start := 0, timeout := 0 } (by decide) (by norm_num) rfl _ _ hrun
  exact ⟨_, hrun,
    (htimeout (polledWithin_of_length_le (by decide))).mpr
      ⟨[.tick, .remain, .tick], .timeout, [], rfl, rfl, by decide⟩,
    (hremain (polledWithin_of_length_le (by decide))).mpr
      ⟨[.tick, .remain, .tick], .remain, [], rfl, rfl, by decide⟩⟩

end Polling

end XbeeAssignment.Timer
