import XbeeAssignment.Timer.Double

/-!
# `Pause`

`Pause` waits with the object's own timer: it takes down what `Remain` says, sets
the timer to the pause, polls it every hundredth of a second, and sets it to what
was left less the pause.  The numbers it goes by mean other things as well:

* `Remain` is `-1` of a timer that never expires, which is then set to `-1` less
  the pause;
* a timer that has expired during the pause is set to a negative time, and `Set`
  takes `-1` for a timer that is never to expire;
* a negative number of ticks is added to the counter as an `unsigned int`, and the
  sum is behind the counter only if the counter is large enough;
* the difference and its product with the tick rate are rounded, and a product just
  below a whole number of ticks is one tick short.

Where that leaves the timer as it should be, to the nearest tick, is `KeepsTime`.  The
`struct vtmr` that `Pause` declares for itself is never used.

Time passes while the loop sleeps only, for as many ticks as the list of naps has it.
-/

namespace XbeeAssignment.Timer

open Truncation FloatRounding

variable {long : LongWidth}

/-! ## The function -/

/-- The static members so many ticks later. -/
def Statics.advance (statics : Statics) (ticks : ℕ) : Statics :=
  { statics with monotonic := tick^[ticks] statics.monotonic }

/-- The static members and the timer when `Pause` returns, and the ticks spent in it. -/
structure Paused (long : LongWidth) where
  statics : Statics
  timer : Vtmr long
  ticks : ℕ

/-- The loop of `Pause`; `none` if it has not ended by the last nap. -/
def pauseLoop (statics : Statics) (timer : Vtmr long) (naps : List ℕ) : Option (Paused long) :=
  if (timeout statics timer).1 ≠ 0 then
    some { statics := statics, timer := (timeout statics timer).2, ticks := 0 }
  else
    match naps with
    | [] => none
    | nap :: naps =>
        (pauseLoop (statics.advance nap) (timeout statics timer).2 naps).map fun paused =>
          { paused with ticks := nap + paused.ticks }

/-- The literal `0.01`. -/
def shortestPause : ℚ := toDouble (1 / 100)

/-- `Pause`. -/
def pause (conv : IntConversion) (statics : Statics) (timer : Vtmr long) (value : ℚ)
    (naps : List ℕ) : Option (Paused long) :=
  let timeRemain := remainDouble statics timer
  let timer := (remain statics timer).2
  if value < shortestPause then
    naps.head?.map fun nap =>
      { statics := statics.advance nap, timer := timer, ticks := nap }
  else
    (pauseLoop statics (set conv.rounded statics value timer) naps).map fun paused =>
      if timeRemain = 0 then paused
      else
        { paused with
          timer := set conv.rounded paused.statics (toDouble (timeRemain - value)) paused.timer }

/-! ## A timer that has been set -/

theorem toNat_iterate_tick {monotonic : UInt32} (hlt : monotonic.toNat < 2 ^ 31) (k : ℕ) :
    (tick^[k] monotonic).toNat = (monotonic.toNat + k) % 2 ^ 31 := by
  induction k with
  | zero => exact (Nat.mod_eq_of_lt hlt).symm
  | succ k ih =>
      rw [Function.iterate_succ_apply']
      exact toNat_tick_of_mod ih

theorem iterate_tick_lt {monotonic : UInt32} (hlt : monotonic.toNat < 2 ^ 31) (k : ℕ) :
    (tick^[k] monotonic).toNat < 2 ^ 31 := by
  rw [toNat_iterate_tick hlt]
  exact Nat.mod_lt _ (by omega)

theorem advance_running (s : UInt32) (k : ℕ) :
    (Statics.running s).advance k = .running (tick^[k] s) := rfl

section

variable (toInt : ℚ → Int32) {s : UInt32} {value : ℚ} (memory : Vtmr long)

theorem mode_set (hvalue : value ≠ -1) :
    (set toInt (.running s) value memory).mode = VtmrMode.active := by
  rw [set, if_neg hvalue]

theorem start_set : (set toInt (.running s) value memory).start.toNat = s.toNat := by
  unfold set
  split <;> exact LongWidth.toNat_widen _ _

/-- The timeout is the sum modulo `2 ^ 32`, of a negative number of ticks too. -/
theorem timeout_set (hvalue : value ≠ -1) :
    ((set toInt (.running s) value memory).timeout.toNat : ℤ) =
      (s.toNat + (tics toInt (.running s) value).toInt) % 2 ^ 32 := by
  rw [set, if_neg hvalue]
  simp only [LongWidth.toNat_widen, toNat_add_toUInt32, Statics.running]
  omega

/-- The counter a poll compares, `k` ticks after `Set`. -/
theorem toNat_unwrapNow_set (hs : s.toNat < 2 ^ 31) (k : ℕ) :
    (unwrapNow ((Statics.running s).advance k)
      (set toInt (.running s) value memory)).toNat = s.toNat + k % 2 ^ 31 := by
  have hmonotonic : (tick^[k] s).toNat = (s.toNat + k % 2 ^ 31) % 2 ^ 31 := by
    rw [toNat_iterate_tick hs, Nat.add_mod_mod]
  have hlt : ((Statics.running s).advance k).monotonic.toNat < 2 ^ 31 := iterate_tick_lt hs k
  calc (unwrapNow ((Statics.running s).advance k)
        (set toInt (.running s) value memory)).toNat
      = WrapCounter.unwrap (2 ^ 31) s.toNat (tick^[k] s).toNat := by
        rw [toNat_unwrapNow hlt, start_set, advance_running]
        rfl
    _ = WrapCounter.unwrap (2 ^ 31) s.toNat ((s.toNat + k % 2 ^ 31) % 2 ^ 31) := by
        rw [hmonotonic]
    _ = s.toNat + k % 2 ^ 31 := WrapCounter.unwrap_mod hs (Nat.mod_lt _ (by omega))

/-- Whether a timer has expired `k` ticks after it was set. -/
theorem timeout_advance_set (hs : s.toNat < 2 ^ 31) (hvalue : value ≠ -1) (k : ℕ) :
    (timeout ((Statics.running s).advance k) (set toInt (.running s) value memory)).1 =
      if ((s.toNat + k % 2 ^ 31 : ℕ) : ℤ) <
        (s.toNat + (tics toInt (.running s) value).toInt) % 2 ^ 32 then 0 else 1 := by
  have hiff : s.toNat + k % 2 ^ 31 < (set toInt (.running s) value memory).timeout.toNat ↔
      ((s.toNat + k % 2 ^ 31 : ℕ) : ℤ) <
        (s.toNat + (tics toInt (.running s) value).toInt) % 2 ^ 32 := by
    rw [← timeout_set toInt memory hvalue, Nat.cast_lt]
  rw [timeout_of_active (mode_set toInt memory hvalue), toNat_unwrapNow_set toInt memory hs]
  simp only [← hiff]
  split <;> rfl

/-- What remains of a timer that has just been set. -/
theorem remain_set (hs : s.toNat < 2 ^ 31) (hvalue : value ≠ -1) {n : ℤ} (hnonneg : 0 ≤ n)
    (htics : (tics toInt (.running s) value).toInt = n) :
    (remain (.running s) (set toInt (.running s) value memory)).1 = (n : ℚ) / 1000 := by
  have hbound := (tics toInt (.running s) value).toInt_lt
  have htimeout : ((set toInt (.running s) value memory).timeout.toNat : ℤ) = s.toNat + n := by
    rw [timeout_set toInt memory hvalue, htics]
    omega
  have hnow : (unwrapNow (.running s) (set toInt (.running s) value memory)).toNat = s.toNat :=
    toNat_unwrapNow_set toInt memory hs 0
  have hrational : ((set toInt (.running s) value memory).timeout.toNat : ℚ) =
      (s.toNat : ℚ) + n := by
    exact_mod_cast htimeout
  rw [remain_of_active (mode_set toInt memory hvalue), hnow]
  rcases hnonneg.eq_or_lt with rfl | hpos
  · rw [if_neg (by omega)]
    simp
  · rw [if_pos (by omega), hrational, add_sub_cancel_left]
    rfl

/-- A time that is not ahead is behind the counter only if the counter is as large. -/
theorem timeout_set_of_nonpos {n : ℤ} (hs : s.toNat < 2 ^ 31) (hvalue : value ≠ -1)
    (htics : (tics toInt (.running s) value).toInt = n) (hlow : -2 ^ 31 ≤ n) (hnonpos : n ≤ 0)
    (k : ℕ) :
    (timeout ((Statics.running s).advance k) (set toInt (.running s) value memory)).1 =
      if 0 ≤ s.toNat + n then 1 else 0 := by
  rw [timeout_advance_set toInt memory hs hvalue, htics]
  by_cases hbehind : 0 ≤ s.toNat + n
  · rw [if_pos hbehind, if_neg (by omega)]
  · rw [if_neg hbehind, if_pos (by omega)]

/-- A time ahead is over when its ticks have been counted. -/
theorem timeout_set_of_pos {n : ℤ} (hs : s.toNat < 2 ^ 31) (hvalue : value ≠ -1)
    (htics : (tics toInt (.running s) value).toInt = n) (hpos : 0 < n) (k : ℕ) :
    (timeout ((Statics.running s).advance k) (set toInt (.running s) value memory)).1 =
      if n ≤ (k % 2 ^ 31 : ℕ) then 1 else 0 := by
  have hbound := (tics toInt (.running s) value).toInt_lt
  rw [timeout_advance_set toInt memory hs hvalue, htics]
  by_cases hle : n ≤ (k % 2 ^ 31 : ℕ)
  · rw [if_pos hle, if_neg (by omega)]
  · rw [if_neg hle, if_pos (by omega)]

end

/-! ## The loop -/

/-- When the loop ends, the time of its naps has passed, and the poll has reported expiry for the
first time. -/
structure LoopEnds (statics : Statics) (timer : Vtmr long) (paused : Paused long) : Prop where
  statics_eq : paused.statics = statics.advance paused.ticks
  mode : paused.timer.mode = VtmrMode.done
  expired : (timeout paused.statics timer).1 ≠ 0
  waited : paused.ticks ≠ 0 → (timeout statics timer).1 = 0

/-- The loop stops at a poll that reports expiry. -/
theorem LoopEnds.of_expired {statics : Statics} {timer : Vtmr long}
    (hone : timeout statics timer = (1, { timer with mode := VtmrMode.done })) :
    LoopEnds statics timer
      { statics := statics, timer := { timer with mode := VtmrMode.done }, ticks := 0 } := by
  have hexpired : (timeout statics timer).1 ≠ 0 := by
    rw [hone]
    exact one_ne_zero
  exact { statics_eq := rfl, mode := rfl, expired := hexpired, waited := fun hne => absurd rfl hne }

/-- Otherwise it goes on after the nap, with the timer as it was. -/
theorem LoopEnds.of_nap {statics : Statics} {timer : Vtmr long} {nap : ℕ} {rest : Paused long}
    (hzero : timeout statics timer = (0, timer))
    (hends : LoopEnds (statics.advance nap) timer rest) :
    LoopEnds statics timer { rest with ticks := nap + rest.ticks } := by
  refine { statics_eq := ?_, mode := hends.mode, expired := hends.expired,
           waited := fun _ => congrArg Prod.fst hzero }
  show rest.statics = statics.advance (nap + rest.ticks)
  rw [hends.statics_eq]
  unfold Statics.advance
  rw [Nat.add_comm, Function.iterate_add_apply]

theorem pauseLoop_ends {statics : Statics} {timer : Vtmr long} {naps : List ℕ}
    {paused : Paused long} (hloop : pauseLoop statics timer naps = some paused) :
    LoopEnds statics timer paused := by
  induction naps generalizing statics paused with
  | nil =>
      rw [pauseLoop] at hloop
      rcases timeout_cases statics timer with ⟨hzero, -⟩ | hone
      · rw [hzero] at hloop
        cases hloop
      · rw [hone] at hloop
        cases hloop
        exact .of_expired hone
  | cons nap naps ih =>
      rw [pauseLoop] at hloop
      rcases timeout_cases statics timer with ⟨hzero, -⟩ | hone
      · rw [hzero] at hloop
        obtain ⟨rest, hrest, rfl⟩ := Option.map_eq_some_iff.mp hloop
        exact .of_nap hzero (ih hrest)
      · rw [hone] at hloop
        cases hloop
        exact .of_expired hone

/-! ## What the timer is set to -/

/-- Two times are the same to the nearest tick. -/
def ToTheTick (x y : ℚ) : Prop := |x - y| ≤ 1 / 2000

/-- Whole numbers of ticks are, if they are equal. -/
theorem toTheTick_natCast_iff {a b : ℕ} : ToTheTick (a / 1000) (b / 1000) ↔ a = b := by
  constructor
  · intro hnear
    obtain ⟨hlow, hhigh⟩ := abs_le.mp hnear
    have hless : (a : ℚ) < ((b + 1 : ℕ) : ℚ) := by
      push_cast
      linarith
    have hmore : (b : ℚ) < ((a + 1 : ℕ) : ℚ) := by
      push_cast
      linarith
    have hless' : a < b + 1 := by exact_mod_cast hless
    have hmore' : b < a + 1 := by exact_mod_cast hmore
    omega
  · rintro rfl
    rw [ToTheTick, sub_self, abs_zero]
    norm_num

section

variable {conv : IntConversion} {m : UInt32} {timer : Vtmr long} {value : ℚ} {w : ℕ}
  {naps : List ℕ} {returned : Paused long}

/-- When `Pause` returns after `w` ticks, the timer is done if nothing remained of it, and has
been set to the rest otherwise. -/
structure PauseEnds (conv : IntConversion) (m : UInt32) (timer : Vtmr long) (value : ℚ) (w : ℕ)
    (returned : Paused long) : Prop where
  statics : returned.statics = .running (tick^[w] m)
  done : remainDouble (.running m) timer = 0 → returned.timer.mode = VtmrMode.done
  resumed : remainDouble (.running m) timer ≠ 0 → ∃ memory : Vtmr long,
    returned.timer = set conv.rounded (.running (tick^[w] m))
      (toDouble (remainDouble (.running m) timer - value)) memory

/-- The shortest pause with a loop is nine ticks and more. -/
theorem nine_lt_shortestPause : 9 / 1000 < shortestPause := by
  have hle := mul_le_nearest (p := 53) (x := 1 / 100) (by norm_num)
  unfold shortestPause toDouble
  norm_num at hle
  linarith

theorem ne_neg_one_of_long (hvalue : shortestPause ≤ value) : value ≠ -1 := by
  rintro rfl
  have hlong := nine_lt_shortestPause
  linarith

/-- The timer the loop polls. -/
def loopTimer (conv : IntConversion) (m : UInt32) (timer : Vtmr long) (value : ℚ) : Vtmr long :=
  set conv.rounded (.running m) value (remain (.running m) timer).2

theorem pause_eq (hvalue : shortestPause ≤ value) :
    pause conv (.running m) timer value naps =
      (pauseLoop (.running m) (loopTimer conv m timer value) naps).map fun paused =>
        if remainDouble (.running m) timer = 0 then paused
        else
          { paused with
            timer := set conv.rounded paused.statics
              (toDouble (remainDouble (.running m) timer - value)) paused.timer } := by
  rw [pause, if_neg (not_lt.mpr hvalue)]
  rfl

/-- The loop that a `Pause` which returns has been through. -/
theorem exists_loop_of_pause (hvalue : shortestPause ≤ value)
    (hpause : pause conv (.running m) timer value naps = some returned) :
    ∃ paused, LoopEnds (.running m) (loopTimer conv m timer value) paused ∧
      returned.ticks = paused.ticks ∧ returned.statics = paused.statics ∧
      returned.timer = if remainDouble (.running m) timer = 0 then paused.timer
        else set conv.rounded paused.statics (toDouble (remainDouble (.running m) timer - value))
          paused.timer := by
  rw [pause_eq hvalue] at hpause
  obtain ⟨paused, hloop, rfl⟩ := Option.map_eq_some_iff.mp hpause
  refine ⟨paused, pauseLoop_ends hloop, ?_⟩
  split <;> exact ⟨rfl, rfl, rfl⟩

theorem pause_ends (hvalue : shortestPause ≤ value)
    (hpause : pause conv (.running m) timer value naps = some returned)
    (hticks : returned.ticks = w) : PauseEnds conv m timer value w returned := by
  obtain ⟨paused, hends, hspent, hstatics, htimer⟩ := exists_loop_of_pause hvalue hpause
  have hrunning : paused.statics = .running (tick^[w] m) := by
    rw [hends.statics_eq, ← hspent, hticks, advance_running]
  rw [hrunning] at hstatics htimer
  refine { statics := hstatics, done := ?_, resumed := ?_ }
  · intro hzero
    rw [htimer, if_pos hzero]
    exact hends.mode
  · intro hne
    rw [if_neg hne] at htimer
    exact ⟨paused.timer, htimer⟩

/-- A loop of a whole number of counter periods does not end when they are over. -/
theorem mod_ne_zero_of_pause (hm : m.toNat < 2 ^ 31) (hvalue : shortestPause ≤ value)
    (hpause : pause conv (.running m) timer value naps = some returned)
    (hticks : returned.ticks = w) (hpos : 0 < w) : w % 2 ^ 31 ≠ 0 := by
  intro hzero
  obtain ⟨paused, hends, hspent, -, -⟩ := exists_loop_of_pause hvalue hpause
  have hspent' : paused.ticks = w := by rw [← hspent, hticks]
  have hne := ne_neg_one_of_long hvalue
  have hexpired := hends.expired
  have hwaited := hends.waited (by omega)
  -- the poll compares the counter it began with
  rw [hends.statics_eq, hspent', loopTimer, timeout_advance_set _ _ hm hne, hzero] at hexpired
  exact hexpired ((timeout_advance_set _ _ hm hne 0).symm.trans hwaited)

/-- A pause that has lasted as long as it should has counted a tick. -/
theorem pos_of_toTheTick (hvalue : shortestPause ≤ value) (hw : ToTheTick (w / 1000) value) :
    0 < w := by
  have hlong := nine_lt_shortestPause
  have hnear := (abs_le.mp hw).1
  have hpos : (0 : ℚ) < w := by linarith
  exact_mod_cast hpos

/-- The loop is over in time if its ticks fit in an `int`. -/
theorem doubleTics_le_of_lt (hvalue : shortestPause ≤ value) (hw : ToTheTick (w / 1000) value)
    (hlt : w < 2 ^ 31) : 0 < doubleTics value ∧ doubleTics value ≤ w := by
  have hlong := nine_lt_shortestPause
  have hnear := abs_le.mp hw
  have hcast : (w : ℚ) + 1 ≤ 2 ^ 31 := by exact_mod_cast hlt
  have hclamped : clampedTics value = value * 1000 := clampedTics_of_lt (by linarith [hnear.1])
  constructor
  · have hle : 1 ≤ doubleTics value := by
      apply le_doubleTics (by linarith)
      rw [hclamped]
      push_cast
      linarith
    omega
  · have hle : (doubleTics value : ℚ) ≤ value * 1000 * (1 + 1 / 2 ^ 53) :=
      doubleTics_le (by linarith)
    have hless : (doubleTics value : ℚ) < ((w + 1 : ℤ) : ℚ) := by
      push_cast
      linarith [hnear.1]
    have hless' : doubleTics value < w + 1 := by exact_mod_cast hless
    omega

/-- Otherwise they do not fit. -/
theorem le_doubleTics_of_le (hw : ToTheTick (w / 1000) value) (hlarge : 2 ^ 31 < w) :
    2 ^ 31 ≤ doubleTics value := by
  have hnear := (abs_le.mp hw).2
  have hcast : (2 : ℚ) ^ 31 + 1 ≤ w := by exact_mod_cast hlarge
  have hmin : (2 ^ 31 + 1 / 2) / 1000 ≤ min value vtmrMaxTimeout := by
    apply le_min
    · linarith
    · unfold vtmrMaxTimeout
      norm_num
  apply le_doubleTics (by linarith)
  unfold clampedTics timerFreq
  push_cast
  linarith

/-- Whatever does not fit is a tick, if it is converted to one. -/
theorem tics_unfit {s : UInt32}
    (hunfit : doubleTics value < -2 ^ 31 ∨ 2 ^ 31 ≤ doubleTics value) :
    (tics (IntConversion.withDefault 1).rounded (.running s) value).toInt = 1 := by
  rw [tics_rounded_withDefault 1 s hunfit]
  decide

/-- If what does not fit is converted to a tick, the loop is set to no more than the pause has,
up to whole periods of the counter. -/
theorem exists_loopTics (m : UInt32) (hvalue : shortestPause ≤ value)
    (hw : ToTheTick (w / 1000) value) (hwrap : w % 2 ^ 31 ≠ 0) :
    ∃ n : ℤ, (tics (IntConversion.withDefault 1).rounded (.running m) value).toInt = n ∧ 0 < n ∧
      n ≤ (w % 2 ^ 31 : ℕ) := by
  by_cases hlt : w < 2 ^ 31
  · obtain ⟨hpos, hle⟩ := doubleTics_le_of_lt hvalue hw hlt
    exact ⟨_, toInt_tics_rounded _ m (by omega) (by omega), hpos, by omega⟩
  · have hunfit := le_doubleTics_of_le hw (by omega)
    exact ⟨1, tics_unfit (.inr hunfit), one_pos, by omega⟩

/-- Any other pause does return when it is over, if the loop sleeps all the time at once. -/
theorem exists_pause (timer : Vtmr long) (hm : m.toNat < 2 ^ 31) (hvalue : shortestPause ≤ value)
    (hw : ToTheTick (w / 1000) value) (hwrap : w % 2 ^ 31 ≠ 0) :
    ∃ returned, pause (.withDefault 1) (.running m) timer value [w] = some returned ∧
      returned.ticks = w := by
  have hne := ne_neg_one_of_long hvalue
  obtain ⟨n, hn, hpos, hle⟩ := exists_loopTics m hvalue hw hwrap
  have hfirst : timeout (.running m) (loopTimer (.withDefault 1) m timer value) =
      (0, loopTimer (.withDefault 1) m timer value) := by
    have hpoll := timeout_set_of_pos _ (remain (.running m) timer).2 hm hne hn hpos 0
    rw [if_neg (by omega)] at hpoll
    rcases timeout_cases (.running m) (loopTimer (.withDefault 1) m timer value) with
      ⟨hzero, -⟩ | hone
    · exact hzero
    · exact absurd (hpoll.symm.trans (congrArg Prod.fst hone)) zero_ne_one
  have hlast : (timeout ((Statics.running m).advance w)
      (loopTimer (.withDefault 1) m timer value)).1 ≠ 0 := by
    have hpoll := timeout_set_of_pos _ (remain (.running m) timer).2 hm hne hn hpos w
    rw [if_pos hle] at hpoll
    exact fun hzero => one_ne_zero (hpoll.symm.trans hzero)
  have hloop : pauseLoop (.running m) (loopTimer (.withDefault 1) m timer value) [w] =
      some { statics := (Statics.running m).advance w,
             timer := (timeout ((Statics.running m).advance w)
               (loopTimer (.withDefault 1) m timer value)).2, ticks := w } := by
    rw [pauseLoop, hfirst]
    show (pauseLoop _ _ []).map _ = _
    rw [pauseLoop, if_pos hlast]
    rfl
  rw [pause_eq hvalue, hloop]
  refine ⟨_, rfl, ?_⟩
  split <;> rfl

end

/-! ## Letting time pass -/

/-- What the time that `Pause` takes does to a timer. -/
structure LetsTimePass (statics : Statics) (timer : Vtmr long) (value : ℚ)
    (returned : Paused long) : Prop where
  never : timer.mode = VtmrMode.never →
    ∀ k, (timeout (returned.statics.advance k) returned.timer).1 = 0
  done : timer.mode = VtmrMode.done ∨ timer.mode = VtmrMode.uninitialized →
    (timeout returned.statics returned.timer).1 = 1
  expired : timer.mode = VtmrMode.active → remainDouble statics timer ≤ value →
    (timeout returned.statics returned.timer).1 = 1
  left : timer.mode = VtmrMode.active → value < remainDouble statics timer →
    ToTheTick (remain returned.statics returned.timer).1 (remainDouble statics timer - value) ∧
      (1 / 2000 < remainDouble statics timer - value →
        (timeout returned.statics returned.timer).1 = 0)

/-- The ticks a timer with `r` seconds left is set to after the pause. -/
def restTics (r value : ℚ) : ℤ :=
  doubleTics (toDouble (r - value))

/-- Of 2.3 seconds less 1.5 a millisecond is lost. -/
example : restTics (toDouble (23 / 10)) (3 / 2) = 799 := by decide +kernel

/-- When a pause that takes `w` ticks leaves the timer as it should be: the counter is low enough
after it for a timer that never expires to be set to a time it never reaches, and high enough for
one that has expired to be set to a time behind it, other than the one second that means never;
and what is left fits in an `int`, and does not lose more than half a tick with its fraction. -/
structure KeepsTime (m : UInt32) (timer : Vtmr long) (value : ℚ) (w : ℕ) : Prop where
  never : timer.mode = VtmrMode.never →
    -2 ^ 31 ≤ restTics (-1) value ∧ ((m.toNat + w) % 2 ^ 31 : ℕ) + restTics (-1) value < 0
  behind : timer.mode = VtmrMode.active → 0 < remainDouble (.running m) timer →
    remainDouble (.running m) timer ≤ value →
      toDouble (remainDouble (.running m) timer - value) ≠ -1 ∧
        0 ≤ ((m.toNat + w) % 2 ^ 31 : ℕ) + restTics (remainDouble (.running m) timer) value
  ahead : timer.mode = VtmrMode.active → value < remainDouble (.running m) timer →
    restTics (remainDouble (.running m) timer) value < 2 ^ 31 ∧
      (remainDouble (.running m) timer - value) * 1000 ≤
        restTics (remainDouble (.running m) timer) value + 1 / 2

section

variable {conv : IntConversion} {m : UInt32} {timer : Vtmr long} {value r : ℚ} {w : ℕ}
  {returned : Paused long}

/-! The rest, rounded. -/

theorem restTics_nonneg (hle : value ≤ r) : 0 ≤ restTics r value :=
  doubleTics_nonneg (nearest_nonneg _ (sub_nonneg.mpr hle))

theorem restTics_nonpos (hle : r ≤ value) : restTics r value ≤ 0 :=
  doubleTics_nonpos (nearest_nonpos _ (sub_nonpos.mpr hle))

theorem rest_ne_neg_one (hle : value ≤ r) : toDouble (r - value) ≠ -1 := by
  have hnonneg := nearest_nonneg 53 (sub_nonneg.mpr hle)
  intro heq
  rw [toDouble] at heq
  linarith

/-- Both roundings together add next to nothing. -/
theorem restTics_le (hle : value ≤ r) :
    (restTics r value : ℚ) ≤ (r - value) * 1000 * (1 + 1 / 2 ^ 51) := by
  have hnonneg := sub_nonneg.mpr hle
  have hrest := nearest_le_mul (p := 53) hnonneg
  have hticks := doubleTics_le (nearest_nonneg 53 hnonneg)
  unfold restTics
  linarith

/-- What does not lose more than half a tick is right to the nearest. -/
theorem toTheTick_rest (hle : value ≤ r) (hfits : restTics r value < 2 ^ 31)
    (hloss : (r - value) * 1000 ≤ restTics r value + 1 / 2) :
    ToTheTick (restTics r value / 1000) (r - value) := by
  have hmore := restTics_le hle
  have hcast : (restTics r value : ℚ) + 1 ≤ 2 ^ 31 := by exact_mod_cast hfits
  rw [ToTheTick, abs_le]
  constructor <;> linarith

theorem never_rest_ne_neg_one (hvalue : shortestPause ≤ value) : toDouble (-1 - value) ≠ -1 := by
  have hlong := nine_lt_shortestPause
  have herror := (abs_le.mp (abs_nearest_sub_le 53 (-1 - value))).2
  rw [abs_of_neg (by linarith)] at herror
  intro heq
  rw [toDouble] at heq
  linarith

/-! What the timer has been set to. -/

theorem PauseEnds.timeout_of_nothing (h : PauseEnds conv m timer value w returned)
    (hzero : remainDouble (.running m) timer = 0) :
    (timeout returned.statics returned.timer).1 = 1 := by
  rw [timeout_of_done (h.done hzero)]

theorem remainDouble_of_never (hmode : timer.mode = VtmrMode.never) :
    remainDouble (.running m) timer = -1 := by
  have hremain : (remain (.running m) timer).1 = -1 := by rw [remain_of_never hmode]
  rw [remainDouble_of_nonpos (by rw [hremain]; norm_num), hremain]

theorem remainDouble_of_over
    (hmode : timer.mode = VtmrMode.done ∨ timer.mode = VtmrMode.uninitialized) :
    remainDouble (.running m) timer = 0 := by
  have hremain : (remain (.running m) timer).1 = 0 := by
    rcases hmode with hmode | hmode
    · rw [remain_of_done hmode]
    · rw [remain_of_uninitialized hmode]
  rw [remainDouble_of_nonpos hremain.le, hremain]

theorem timeout_of_never_low (hm : m.toNat < 2 ^ 31) (hvalue : shortestPause ≤ value)
    (h : PauseEnds conv m timer value w returned) (hmode : timer.mode = VtmrMode.never)
    (hfits : -2 ^ 31 ≤ restTics (-1) value)
    (hlow : ((m.toNat + w) % 2 ^ 31 : ℕ) + restTics (-1) value < 0) (k : ℕ) :
    (timeout (returned.statics.advance k) returned.timer).1 = 0 := by
  have hs := toNat_iterate_tick hm w
  have hlt := iterate_tick_lt hm w
  have hlong := nine_lt_shortestPause
  have hremain : remainDouble (.running m) timer = -1 := remainDouble_of_never hmode
  obtain ⟨memory, htimer⟩ := h.resumed (by rw [hremain]; norm_num)
  rw [hremain] at htimer
  have hnonpos : restTics (-1) value ≤ 0 := restTics_nonpos (by linarith)
  have htics : (tics conv.rounded (.running (tick^[w] m)) (toDouble (-1 - value))).toInt =
      restTics (-1) value :=
    toInt_tics_rounded conv (tick^[w] m) hfits (hnonpos.trans_lt (by norm_num))
  rw [h.statics, htimer, timeout_set_of_nonpos _ memory hlt (never_rest_ne_neg_one hvalue) htics
    hfits hnonpos, if_neg (by omega)]

theorem timeout_of_behind (hm : m.toNat < 2 ^ 31) (h : PauseEnds conv m timer value w returned)
    (hpos : 0 < remainDouble (.running m) timer) (hle : remainDouble (.running m) timer ≤ value)
    (hne : toDouble (remainDouble (.running m) timer - value) ≠ -1)
    (hbehind : 0 ≤ ((m.toNat + w) % 2 ^ 31 : ℕ) +
      restTics (remainDouble (.running m) timer) value) :
    (timeout returned.statics returned.timer).1 = 1 := by
  have hs := toNat_iterate_tick hm w
  have hlt := iterate_tick_lt hm w
  obtain ⟨memory, htimer⟩ := h.resumed hpos.ne'
  have hnonpos := restTics_nonpos hle
  have hfits : -2 ^ 31 ≤ restTics (remainDouble (.running m) timer) value := by omega
  have htics := toInt_tics_rounded conv (tick^[w] m) hfits (hnonpos.trans_lt (by norm_num))
  rw [h.statics, htimer]
  refine (timeout_set_of_nonpos _ memory hlt hne htics hfits hnonpos 0).trans (if_pos ?_)
  rw [← restTics]
  omega

theorem remain_of_ahead (hm : m.toNat < 2 ^ 31) (hvalue : shortestPause ≤ value)
    (h : PauseEnds conv m timer value w returned) (hgt : value < remainDouble (.running m) timer)
    (hfits : restTics (remainDouble (.running m) timer) value < 2 ^ 31)
    (hloss : (remainDouble (.running m) timer - value) * 1000 ≤
      restTics (remainDouble (.running m) timer) value + 1 / 2) :
    ToTheTick (remain returned.statics returned.timer).1 (remainDouble (.running m) timer - value) ∧
      (1 / 2000 < remainDouble (.running m) timer - value →
        (timeout returned.statics returned.timer).1 = 0) := by
  have hlt := iterate_tick_lt hm w
  have hlong := nine_lt_shortestPause
  obtain ⟨memory, htimer⟩ := h.resumed (by linarith)
  have hnonneg := restTics_nonneg hgt.le
  have hne := rest_ne_neg_one hgt.le
  have htics := toInt_tics_rounded conv (tick^[w] m)
    ((by norm_num : (-2 ^ 31 : ℤ) ≤ 0).trans hnonneg) hfits
  rw [h.statics, htimer]
  refine ⟨?_, fun hmore => ?_⟩
  · rw [remain_set _ memory hlt hne hnonneg htics]
    exact toTheTick_rest hgt.le hfits hloss
  · have hpos : 0 < restTics (remainDouble (.running m) timer) value := by
      have hcast : (0 : ℚ) < restTics (remainDouble (.running m) timer) value := by linarith
      exact_mod_cast hcast
    refine (timeout_set_of_pos _ memory hlt hne htics hpos 0).trans (if_neg ?_)
    rw [← restTics]
    omega

theorem letsTimePass_of_keepsTime (hm : m.toNat < 2 ^ 31) (hvalue : shortestPause ≤ value)
    (hkeeps : KeepsTime m timer value w) (h : PauseEnds conv m timer value w returned) :
    LetsTimePass (.running m) timer value returned := by
  refine { never := ?_, done := fun hmode => h.timeout_of_nothing (remainDouble_of_over hmode),
           expired := ?_, left := ?_ }
  · intro hmode
    obtain ⟨hfits, hlow⟩ := hkeeps.never hmode
    exact timeout_of_never_low hm hvalue h hmode hfits hlow
  · intro hmode hle
    rcases (remainDouble_nonneg (m := m) hmode).eq_or_lt with hzero | hpos
    · exact h.timeout_of_nothing hzero.symm
    · obtain ⟨hne, hbehind⟩ := hkeeps.behind hmode hpos hle
      exact timeout_of_behind hm h hpos hle hne hbehind
  · intro hmode hgt
    obtain ⟨hfits, hloss⟩ := hkeeps.ahead hmode hgt
    exact remain_of_ahead hm hvalue h hgt hfits hloss

/-! The conversion that gives `1` for whatever does not fit shows that nothing less will do. -/

theorem never_of_letsTimePass (hm : m.toNat < 2 ^ 31) (hvalue : shortestPause ≤ value)
    (h : PauseEnds (.withDefault 1) m timer value w returned)
    (hpass : LetsTimePass (.running m) timer value returned)
    (hmode : timer.mode = VtmrMode.never) :
    -2 ^ 31 ≤ restTics (-1) value ∧ ((m.toNat + w) % 2 ^ 31 : ℕ) + restTics (-1) value < 0 := by
  have hs := toNat_iterate_tick hm w
  have hlt := iterate_tick_lt hm w
  have hlong := nine_lt_shortestPause
  have hremain : remainDouble (.running m) timer = -1 := remainDouble_of_never hmode
  have hnonpos : restTics (-1) value ≤ 0 := restTics_nonpos (by linarith)
  have hne := never_rest_ne_neg_one hvalue
  obtain ⟨memory, htimer⟩ := h.resumed (by rw [hremain]; norm_num)
  have hnever := hpass.never hmode
  rw [hremain] at htimer
  rw [h.statics, htimer] at hnever
  by_cases hfits : -2 ^ 31 ≤ restTics (-1) value
  · have htics : (tics (IntConversion.withDefault 1).rounded (.running (tick^[w] m))
        (toDouble (-1 - value))).toInt = restTics (-1) value :=
      toInt_tics_rounded (.withDefault 1) (tick^[w] m) hfits (hnonpos.trans_lt (by norm_num))
    have hnow := hnever 0
    rw [timeout_set_of_nonpos _ memory hlt hne htics hfits hnonpos] at hnow
    refine ⟨hfits, ?_⟩
    by_contra hhigh
    rw [if_pos (by omega)] at hnow
    exact absurd hnow one_ne_zero
  · -- it has expired after a tick
    have hnext := hnever 1
    rw [timeout_set_of_pos _ memory hlt hne (tics_unfit (.inl (not_le.mp hfits))) one_pos]
      at hnext
    exact absurd hnext (by decide)

theorem behind_of_letsTimePass (hm : m.toNat < 2 ^ 31)
    (h : PauseEnds (.withDefault 1) m timer value w returned)
    (hpass : LetsTimePass (.running m) timer value returned)
    (hmode : timer.mode = VtmrMode.active) (hpos : 0 < remainDouble (.running m) timer)
    (hle : remainDouble (.running m) timer ≤ value) :
    toDouble (remainDouble (.running m) timer - value) ≠ -1 ∧
      0 ≤ ((m.toNat + w) % 2 ^ 31 : ℕ) + restTics (remainDouble (.running m) timer) value := by
  have hs := toNat_iterate_tick hm w
  have hlt := iterate_tick_lt hm w
  have hnonpos := restTics_nonpos hle
  obtain ⟨memory, htimer⟩ := h.resumed hpos.ne'
  have hexpired := hpass.expired hmode hle
  rw [h.statics, htimer] at hexpired
  have hne : toDouble (remainDouble (.running m) timer - value) ≠ -1 := by
    intro hsecond
    -- the timer is never to expire
    rw [hsecond, timeout_of_never (by rw [set, if_pos rfl])] at hexpired
    exact absurd hexpired.symm one_ne_zero
  refine ⟨hne, ?_⟩
  by_cases hfits : -2 ^ 31 ≤ restTics (remainDouble (.running m) timer) value
  · have htics := toInt_tics_rounded (.withDefault 1) (tick^[w] m) hfits
      (hnonpos.trans_lt (by norm_num))
    have hpoll := timeout_set_of_nonpos _ memory hlt hne htics hfits hnonpos 0
    rw [← restTics] at hpoll
    by_contra hlow
    rw [if_neg (by omega)] at hpoll
    exact absurd (hpoll.symm.trans hexpired) (by decide)
  · have hpoll := timeout_set_of_pos _ memory hlt hne (tics_unfit (.inl (not_le.mp hfits)))
      one_pos 0
    exact absurd (hpoll.symm.trans hexpired) (by decide)

theorem ahead_of_letsTimePass (hm : m.toNat < 2 ^ 31) (hvalue : shortestPause ≤ value)
    (h : PauseEnds (.withDefault 1) m timer value w returned)
    (hpass : LetsTimePass (.running m) timer value returned)
    (hmode : timer.mode = VtmrMode.active) (hgt : value < remainDouble (.running m) timer) :
    restTics (remainDouble (.running m) timer) value < 2 ^ 31 ∧
      (remainDouble (.running m) timer - value) * 1000 ≤
        restTics (remainDouble (.running m) timer) value + 1 / 2 := by
  have hlt := iterate_tick_lt hm w
  have hlong := nine_lt_shortestPause
  have hnonneg := restTics_nonneg hgt.le
  have hne := rest_ne_neg_one hgt.le
  obtain ⟨memory, htimer⟩ := h.resumed (by linarith)
  obtain ⟨hremain, -⟩ := hpass.left hmode hgt
  rw [h.statics, htimer, ToTheTick, abs_le] at hremain
  by_cases hfits : restTics (remainDouble (.running m) timer) value < 2 ^ 31
  · have htics := toInt_tics_rounded (.withDefault 1) (tick^[w] m)
      ((by norm_num : (-2 ^ 31 : ℤ) ≤ 0).trans hnonneg) hfits
    rw [remain_set _ memory hlt hne hnonneg htics] at hremain
    exact ⟨hfits, by linarith [hremain.1]⟩
  · -- one tick is left, of more than a period
    rw [remain_set _ memory hlt hne zero_le_one (tics_unfit (.inr (not_lt.mp hfits)))] at hremain
    have hmore := restTics_le hgt.le
    have hcast : (2 : ℚ) ^ 31 ≤ restTics (remainDouble (.running m) timer) value := by
      exact_mod_cast not_lt.mp hfits
    push_cast at hremain
    linarith [hremain.1]

theorem keepsTime_of_letsTimePass (hm : m.toNat < 2 ^ 31) (hvalue : shortestPause ≤ value)
    (h : PauseEnds (.withDefault 1) m timer value w returned)
    (hpass : LetsTimePass (.running m) timer value returned) : KeepsTime m timer value w :=
  { never := never_of_letsTimePass hm hvalue h hpass
    behind := behind_of_letsTimePass hm h hpass
    ahead := ahead_of_letsTimePass hm hvalue h hpass }

end

/-- **`Pause`.**  For every state of the timer and of the counter and every pause, returning from
`Pause` when the pause is over leaves the timer as the time passed would have, whatever the naps
and the conversions, exactly if the pause is a whole number of the counter's periods (it does not
return then) or `KeepsTime` holds. -/
theorem pause_lets_time_pass_iff (m : UInt32) (timer : Vtmr long) (value : ℚ)
    (hm : m.toNat < 2 ^ 31) (hvalue : shortestPause ≤ value) :
    (∀ (conv : IntConversion) (naps : List ℕ) (returned : Paused long),
      pause conv (.running m) timer value naps = some returned →
        ToTheTick (returned.ticks / 1000) value →
          LetsTimePass (.running m) timer value returned) ↔
      ∀ w : ℕ, ToTheTick (w / 1000) value → w % 2 ^ 31 = 0 ∨ KeepsTime m timer value w := by
  constructor
  · intro hall w hw
    refine or_iff_not_imp_left.mpr fun hwrap => ?_
    obtain ⟨returned, hpause, hspent⟩ := exists_pause timer hm hvalue hw hwrap
    have hpass := hall (.withDefault 1) [w] returned hpause (by rw [hspent]; exact hw)
    exact keepsTime_of_letsTimePass hm hvalue (pause_ends hvalue hpause hspent) hpass
  · intro hkeeps conv naps returned hpause hspent
    have hends := pause_ends hvalue hpause rfl
    rcases hkeeps _ hspent with hwhole | hkeeps
    · exact absurd hwhole
        (mod_ne_zero_of_pause hm hvalue hpause rfl (pos_of_toTheTick hvalue hspent))
    · exact letsTimePass_of_keepsTime hm hvalue hkeeps hends

/-- A timer with so many milliseconds left on a counter that stands at zero. -/
def leftTimer (long : LongWidth) (ticks : ℕ) : Vtmr long :=
  { mode := VtmrMode.active, start := 0, timeout := .ofNat _ ticks }

/-- A pause of a second while five are left. -/
theorem pause_lets_time_pass_five :
    ∃ returned, pause (.withDefault 1) (.running 0) (leftTimer .bits32 5000) ((1000 : ℕ) / 1000)
        [1000] = some returned ∧
      LetsTimePass (.running 0) (leftTimer .bits32 5000) ((1000 : ℕ) / 1000) returned := by
  have hvalue : shortestPause ≤ ((1000 : ℕ) : ℚ) / 1000 := by decide +kernel
  obtain ⟨returned, hpause, hspent⟩ := exists_pause (w := 1000) (leftTimer .bits32 5000) (m := 0)
    (by decide) hvalue (toTheTick_natCast_iff.mpr rfl) (by decide)
  have hkeeps : ∀ w : ℕ, ToTheTick (w / 1000) ((1000 : ℕ) / 1000) → w % 2 ^ 31 = 0 ∨
      KeepsTime 0 (leftTimer .bits32 5000) ((1000 : ℕ) / 1000) w := by
    intro w hw
    obtain rfl : w = 1000 := toTheTick_natCast_iff.mp hw
    exact .inr { never := by decide, behind := by decide +kernel, ahead := by decide +kernel }
  exact ⟨returned, hpause, (pause_lets_time_pass_iff 0 _ _ (by decide) hvalue).mpr hkeeps
    _ _ returned hpause (by rw [hspent]; exact toTheTick_natCast_iff.mpr rfl)⟩

/-- A pause of two seconds while one is left: the timer never expires. -/
theorem not_pause_lets_time_pass_second :
    ∃ returned, pause (.withDefault 1) (.running 0) (leftTimer .bits32 1000) ((2000 : ℕ) / 1000)
        [2000] = some returned ∧
      returned.ticks = 2000 ∧
      ¬ LetsTimePass (.running 0) (leftTimer .bits32 1000) ((2000 : ℕ) / 1000) returned := by
  have hvalue : shortestPause ≤ ((2000 : ℕ) : ℚ) / 1000 := by decide +kernel
  obtain ⟨returned, hpause, hspent⟩ := exists_pause (w := 2000) (leftTimer .bits32 1000) (m := 0)
    (by decide) hvalue (toTheTick_natCast_iff.mpr rfl) (by decide)
  refine ⟨returned, hpause, hspent, fun hpass => ?_⟩
  have hends := pause_ends hvalue hpause hspent
  have hkeeps := keepsTime_of_letsTimePass (by decide) hvalue hends hpass
  have hsecond := (hkeeps.behind rfl (by decide +kernel) (by decide +kernel)).1
  exact hsecond (by decide +kernel)

end XbeeAssignment.Timer
