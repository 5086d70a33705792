import XbeeAssignment.Lib.Transition
import XbeeAssignment.Timer.Vtmr
import Mathlib.Algebra.Order.Field.Basic
import Mathlib.Tactic.NormNum

/-!
# Expiry of an armed timer

`Set` stores the counter as `start` and adds the duration to it without taking
the counter's start over into account, so that `timeout` may lie above the
counter's period.  A poll makes up for it: it adds the period to a counter that
stands below `start`.  For less than a period of ticks after `Set` that is the
counter `WrapCounter.unwrap` gives back, `start` plus the ticks elapsed, and

  `expired ↔ duration ≤ elapsed`

whatever the start (`Armed.timeout_eq`, `Armed.remain_eq`).  `Armed` is the
invariant of a run of ticks and polls; its `mode` says that a timer is done
exactly if a poll has reported it, which no poll does early.
-/

namespace XbeeAssignment.Timer

open Transition

/-! ## Ticks and polls -/

/-- What a poll returned. -/
inductive Answer
  | timeout (value : ℤ)
  | remain (value : ℚ)

/-- The poll reported expiry. -/
def Answer.expired : Answer → Bool
  | .timeout value => value = 1
  | .remain value => value = 0

inductive TimerEvent
  | tick
  | timeout
  | remain

/-- The statics, a timer, the ticks since it was set, and what its polls returned. -/
structure Polling (long : LongWidth) where
  statics : Statics
  timer : Vtmr long
  elapsed : ℕ
  answers : List Answer

/-- The static members while the counter stands at `s`. -/
def Statics.running (s : UInt32) : Statics :=
  { initialized := true, monotonic := s, ticsPerSec := timerFreq }

namespace Polling

variable {long : LongWidth}

/-- A timer that `Set` has just armed. -/
def armed (toInt : ℚ → Int32) (s : UInt32) (value : ℚ) (memory : Vtmr long) : Polling long :=
  { statics := .running s, timer := set toInt (.running s) value memory, elapsed := 0,
    answers := [] }

/-- One tick, or one poll. -/
def step (p : Polling long) : TimerEvent → Polling long
  | .tick =>
      { p with statics := { p.statics with monotonic := tick p.statics.monotonic }
               elapsed := p.elapsed + 1 }
  | .timeout =>
      { p with timer := (timeout p.statics p.timer).2
               answers := p.answers ++ [.timeout (timeout p.statics p.timer).1] }
  | .remain =>
      { p with timer := (remain p.statics p.timer).2
               answers := p.answers ++ [.remain (remain p.statics p.timer).1] }

def next (p : Polling long) (event : TimerEvent) : Option (Polling long) :=
  some (p.step event)

/-! ## The invariant -/

/-- The timer was set at `s` for `d` ticks, and is done exactly if a poll has said so. -/
structure Armed (s d : ℕ) (p : Polling long) : Prop where
  ticsPerSec : p.statics.ticsPerSec = timerFreq
  monotonic : p.statics.monotonic.toNat = (s + p.elapsed) % 2 ^ 31
  start : p.timer.start.toNat = s
  timeout : p.timer.timeout.toNat = s + d
  mode : (p.timer.mode = VtmrMode.active ∧ p.answers.any Answer.expired = false) ∨
    (p.timer.mode = VtmrMode.done ∧ p.answers.any Answer.expired = true ∧ d ≤ p.elapsed)

variable {s d : ℕ} {p : Polling long}

/-- A duration of `d` tics, as it is added to the counter. -/
theorem toNat_tics {toInt : ℚ → Int32} {statics : Statics} {value : ℚ}
    (htics : (tics toInt statics value).toInt = d) :
    (tics toInt statics value).toUInt32.toNat = d := by
  have hvalue := toNat_toUInt32 (tics toInt statics value)
  have hbound := (tics toInt statics value).toInt_lt
  omega

theorem armed_armed {toInt : ℚ → Int32} {start : UInt32} {value : ℚ} (memory : Vtmr long)
    (hstart : start.toNat < 2 ^ 31) (hvalue : value ≠ -1)
    (htics : (tics toInt (.running start) value).toInt = d) :
    Armed start.toNat d (armed toInt start value memory) := by
  have hbound := (tics toInt (.running start) value).toInt_lt
  have hsum : (start + (tics toInt (.running start) value).toUInt32).toNat = start.toNat + d := by
    rw [UInt32.toNat_add, toNat_tics htics]
    omega
  unfold armed set
  rw [if_neg hvalue]
  exact {
    ticsPerSec := rfl
    monotonic := (Nat.mod_eq_of_lt hstart).symm
    start := by simp [Statics.running]
    timeout := by simp only [LongWidth.toNat_widen]; exact hsum
    mode := .inl ⟨rfl, rfl⟩ }

/-- The counter a poll compares is the start and the ticks since. -/
theorem Armed.toNat_unwrapNow (h : Armed s d p) (hs : s < 2 ^ 31) (helapsed : p.elapsed < 2 ^ 31) :
    (unwrapNow p.statics p.timer).toNat = s + p.elapsed := by
  have hlt : p.statics.monotonic.toNat < 2 ^ 31 := by
    rw [h.monotonic]
    exact Nat.mod_lt _ (by omega)
  rw [Timer.toNat_unwrapNow hlt, h.start, h.monotonic, WrapCounter.unwrap_mod hs helapsed]

/-- `Timeout` reports expiry exactly if the duration has elapsed. -/
theorem Armed.timeout_eq (h : Armed s d p) (hs : s < 2 ^ 31) (helapsed : p.elapsed < 2 ^ 31) :
    Timer.timeout p.statics p.timer =
      if d ≤ p.elapsed then (1, { p.timer with mode := VtmrMode.done }) else (0, p.timer) := by
  rcases h.mode with ⟨hmode, -⟩ | ⟨hmode, -, hexpired⟩
  · rw [timeout_of_active hmode, h.toNat_unwrapNow hs helapsed, h.timeout]
    by_cases hexpired : d ≤ p.elapsed
    · rw [if_pos hexpired, if_neg (by omega)]
    · rw [if_neg hexpired, if_pos (by omega)]
  · rw [timeout_of_done hmode, if_pos hexpired, ← hmode]

/-- `Remain` reports expiry exactly if the duration has elapsed, and otherwise the rest of it. -/
theorem Armed.remain_eq (h : Armed s d p) (hs : s < 2 ^ 31) (helapsed : p.elapsed < 2 ^ 31) :
    Timer.remain p.statics p.timer =
      if d ≤ p.elapsed then (0, { p.timer with mode := VtmrMode.done })
      else (((d : ℚ) - (p.elapsed : ℚ)) / timerFreq, p.timer) := by
  rcases h.mode with ⟨hmode, -⟩ | ⟨hmode, -, hexpired⟩
  · rw [remain_of_active hmode, h.toNat_unwrapNow hs helapsed, h.timeout, h.ticsPerSec]
    by_cases hexpired : d ≤ p.elapsed
    · rw [if_pos hexpired, if_neg (by omega)]
    · rw [if_neg hexpired, if_pos (by omega), Nat.cast_add, Nat.cast_add,
        add_sub_add_left_eq_sub]
  · rw [remain_of_done hmode, if_pos hexpired, ← hmode]

/-- What is left of a duration is not nothing. -/
theorem remain_ne_zero {d e : ℕ} (hlt : e < d) : ((d : ℚ) - (e : ℚ)) / timerFreq ≠ 0 := by
  have hpos : (0 : ℚ) < (d : ℚ) - (e : ℚ) := sub_pos.mpr (Nat.cast_lt.mpr hlt)
  have hfreq : (0 : ℚ) < timerFreq := by
    unfold timerFreq
    norm_num
  exact (div_pos hpos hfreq).ne'

/-! ## Runs -/

/-- A poll that leaves the timer done after the duration, or as it is before. -/
theorem Armed.poll (h : Armed s d p) {timer : Vtmr long} {answer : Answer}
    (htimer : timer = if d ≤ p.elapsed then { p.timer with mode := VtmrMode.done } else p.timer)
    (hanswer : answer.expired = decide (d ≤ p.elapsed)) :
    Armed s d { p with timer := timer, answers := p.answers ++ [answer] } := by
  by_cases hexpired : d ≤ p.elapsed
  · rw [if_pos hexpired] at htimer
    subst htimer
    exact { h with mode := .inr ⟨rfl, by simp [hanswer, hexpired], hexpired⟩ }
  · rw [if_neg hexpired] at htimer
    subst htimer
    refine { h with mode := .inl ?_ }
    rcases h.mode with ⟨hmode, hnone⟩ | ⟨-, -, hle⟩
    · exact ⟨hmode, by simp [hnone, hanswer, hexpired]⟩
    · exact absurd hle hexpired

theorem Armed.step (h : Armed s d p) (hs : s < 2 ^ 31) (helapsed : p.elapsed < 2 ^ 31)
    (event : TimerEvent) : Armed s d (p.step event) := by
  cases event with
  | tick =>
      refine { ticsPerSec := h.ticsPerSec, monotonic := toNat_tick_of_mod h.monotonic,
               start := h.start, timeout := h.timeout, mode := ?_ }
      · rcases h.mode with hactive | ⟨hdone, hreported, hle⟩
        · exact .inl hactive
        · exact .inr ⟨hdone, hreported, Nat.le_succ_of_le hle⟩
  | timeout =>
      have heq := h.timeout_eq hs helapsed
      apply h.poll
      · rw [heq]
        split <;> rfl
      · rw [heq]
        by_cases hexpired : d ≤ p.elapsed <;> simp [Answer.expired, hexpired]
  | remain =>
      have heq := h.remain_eq hs helapsed
      apply h.poll
      · rw [heq]
        split <;> rfl
      · rw [heq]
        by_cases hexpired : d ≤ p.elapsed
        · simp [Answer.expired, hexpired]
        · have hne := remain_ne_zero (not_le.mp hexpired)
          simp [Answer.expired, hexpired, hne]

theorem elapsed_le_step (p : Polling long) (event : TimerEvent) :
    p.elapsed ≤ (p.step event).elapsed := by
  cases event with
  | tick => exact Nat.le_succ _
  | timeout | remain => exact Nat.le_refl _

/-- The invariant holds in a run for as long as less than a period has elapsed. -/
theorem Armed.run {start d : ℕ} {events : List TimerEvent} {p q : Polling long}
    (hrun : Run (StepOf next) p events q) (hstart : start < 2 ^ 31) (h : Armed start d p)
    (helapsed : q.elapsed < 2 ^ 31) : Armed start d q := by
  have hstep : ∀ (p : Polling long) (event : TimerEvent) (q : Polling long),
      (p.elapsed < 2 ^ 31 → Armed start d p) → StepOf next p event q →
        (q.elapsed < 2 ^ 31 → Armed start d q) := by
    rintro p event _ hp ⟨⟩ hlt
    have hbefore : p.elapsed < 2 ^ 31 := (elapsed_le_step p event).trans_lt hlt
    exact (hp hbefore).step hstart hbefore event
  exact hrun.invariant hstep (fun _ => h) helapsed

/-- **Expiry.**  For less than a period of ticks after `Set`, a poll reports expiry exactly if the
duration has elapsed or an earlier poll has reported it; otherwise `Remain` returns what is left
of the duration.  None of the unsigned additions overflows. -/
theorem expiry_exact (long : LongWidth) (toInt : ℚ → Int32) (s : UInt32) (d : ℕ) (value : ℚ)
    (memory : Vtmr long) (hs : s.toNat < 2 ^ 31) (hvalue : value ≠ -1)
    (htics : (tics toInt (.running s) value).toInt = d) (events : List TimerEvent)
    (p : Polling long) (hrun : Run (StepOf next) (armed toInt s value memory) events p)
    (helapsed : p.elapsed < 2 ^ 31) :
    (Timer.timeout p.statics p.timer).1 =
        (if d ≤ p.elapsed ∨ p.answers.any Answer.expired = true then 1 else 0) ∧
      (Timer.remain p.statics p.timer).1 =
        (if d ≤ p.elapsed ∨ p.answers.any Answer.expired = true then 0
          else ((d : ℚ) - (p.elapsed : ℚ)) / 1000) ∧
      s.toNat + (tics toInt (.running s) value).toUInt32.toNat < 2 ^ 32 ∧
      (long.widen p.statics.monotonic < p.timer.start →
        p.statics.monotonic.toNat + vtmrWraparound.toNat < 2 ^ 32) ∧
      p.statics.monotonic.toNat + 1 < 2 ^ 32 := by
  have h := Armed.run hrun hs (armed_armed memory hs hvalue htics) helapsed
  have hreported : d ≤ p.elapsed ∨ p.answers.any Answer.expired = true ↔ d ≤ p.elapsed := by
    refine or_iff_left_of_imp fun hany => ?_
    rcases h.mode with ⟨-, hnone⟩ | ⟨-, -, hle⟩
    · rw [hany] at hnone
      cases hnone
    · exact hle
  have hlt : p.statics.monotonic.toNat < 2 ^ 31 := by
    rw [h.monotonic]
    exact Nat.mod_lt _ (by omega)
  simp only [hreported]
  refine ⟨?_, ?_, ?_, ?_, by omega⟩
  · rw [h.timeout_eq hs helapsed]
    split <;> rfl
  · rw [h.remain_eq hs helapsed]
    split <;> rfl
  · rw [toNat_tics htics]
    have hbound := (tics toInt (.running s) value).toInt_lt
    omega
  · rw [toNat_vtmrWraparound]
    omega

/-- A timer for two ticks, set one tick before the counter starts over. -/
theorem expiry_exact_wrap :
    ∃ p, Run (StepOf next) (armed (fun _ => 2) 0x7FFFFFFF (1 / 500)
        ({ mode := 7, start := 0, timeout := 0 } : Vtmr .bits32)) [.tick, .remain, .tick] p ∧
      (Timer.timeout p.statics p.timer).1 = 1 := by
  have hrun : Run (StepOf next) (armed (fun _ => 2) 0x7FFFFFFF (1 / 500)
      ({ mode := 7, start := 0, timeout := 0 } : Vtmr .bits32)) [.tick, .remain, .tick] _ :=
    run_iff_exec.mpr rfl
  refine ⟨_, hrun, ?_⟩
  have hexpired := (expiry_exact .bits32 (fun _ => 2) 0x7FFFFFFF 2 (1 / 500)
    { mode := 7, start := 0, timeout := 0 } (by decide) (by norm_num) rfl _ _ hrun
    (by decide)).1
  rw [hexpired, if_pos (.inl (by decide))]

end Polling

end XbeeAssignment.Timer
