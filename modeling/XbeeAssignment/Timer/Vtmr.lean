import XbeeAssignment.Lib.WrapCounter
import Mathlib.Algebra.Order.Ring.Rat

/-!
# `Timer`: one object and the static counter

A `Timer` object is a `struct vtmr`; the tick counter `Monotonic` and the tick
rate are static and set up by the first constructor that runs.  The functions
below read the statics and the object's own struct, and return what the source
returns together with the struct they leave.

* `double` results are rationals.  How the product in `Set` is rounded and
  converted to `int` is a parameter, `toInt`: it is arbitrary, and in particular
  so is what happens beyond the range of `int`.  `remain` and `elapsed` are the
  quotients before they are rounded; `Timer.Double` has what is returned.
* `unsigned long` has 32 or 64 bits, `LongWidth`.
* The mode is an `int`, since the memory an object is constructed in may hold any.
-/

namespace XbeeAssignment.Timer

/-! ## Data -/

/-- `VTMR_WRAPAROUND`. -/
def vtmrWraparound : UInt32 := 0x80000000

/-- `VTMR_MAXTIMEOUT`. -/
def vtmrMaxTimeout : ℚ := 3 * 365 * 24 * 60 * 60

/-- `TIMER_FREQ`. -/
def timerFreq : ℚ := 1000

namespace VtmrMode

def uninitialized : Int32 := 0
def active : Int32 := 1
def done : Int32 := 2
def never : Int32 := 3

theorem done_ne_uninitialized : done ≠ uninitialized := by decide

theorem never_ne_uninitialized : never ≠ uninitialized := by decide

theorem active_ne_uninitialized : active ≠ uninitialized := by decide

theorem never_ne_done : never ≠ done := by decide

theorem active_ne_done : active ≠ done := by decide

theorem active_ne_never : active ≠ never := by decide

end VtmrMode

/-- The width of `unsigned long`. -/
inductive LongWidth
  | bits32
  | bits64

def LongWidth.bits : LongWidth → ℕ
  | .bits32 => 32
  | .bits64 => 64

/-- An `unsigned int` converted to `unsigned long`. -/
def LongWidth.widen (long : LongWidth) (n : UInt32) : BitVec long.bits :=
  n.toBitVec.setWidth long.bits

@[simp] theorem LongWidth.toNat_widen (long : LongWidth) (n : UInt32) :
    (long.widen n).toNat = n.toNat := by
  have hlt := n.toNat_lt
  cases long with
  | bits32 => simp [LongWidth.widen, LongWidth.bits]
  | bits64 =>
      simp only [LongWidth.widen, LongWidth.bits, BitVec.toNat_setWidth, UInt32.toNat_toBitVec]
      omega

/-- `struct vtmr`. -/
structure Vtmr (long : LongWidth) where
  mode : Int32
  start : BitVec long.bits
  timeout : BitVec long.bits

/-- The static members the functions of an object use. -/
structure Statics where
  initialized : Bool
  monotonic : UInt32
  ticsPerSec : ℚ

/-- The static members before the first constructor runs. -/
def Statics.zero : Statics :=
  { initialized := false, monotonic := 0, ticsPerSec := 0 }

variable {long : LongWidth}

/-! ## The functions -/

/-- `Initialize`, which clears the object's struct in its first call only. -/
def initializeTimer (statics : Statics) (timer : Vtmr long) : Statics × Vtmr long :=
  if statics.initialized then (statics, timer)
  else
    ({ initialized := true, monotonic := 0, ticsPerSec := timerFreq },
      { mode := VtmrMode.uninitialized, start := 0, timeout := 0 })

/-- The tics `Set` waits for, as the `int` they are converted to. -/
def tics (toInt : ℚ → Int32) (statics : Statics) (value : ℚ) : Int32 :=
  toInt ((if value < vtmrMaxTimeout then value else vtmrMaxTimeout) * statics.ticsPerSec)

/-- `Set`. -/
def set (toInt : ℚ → Int32) (statics : Statics) (value : ℚ) (timer : Vtmr long) : Vtmr long :=
  if value = -1 then
    { timer with mode := VtmrMode.never, start := long.widen statics.monotonic }
  else
    { mode := VtmrMode.active
      timeout := long.widen (statics.monotonic + (tics toInt statics value).toUInt32)
      start := long.widen statics.monotonic }

/-- What `Timeout` and `Remain` do first. -/
def settle (timer : Vtmr long) : Vtmr long :=
  if timer.mode = VtmrMode.uninitialized then { timer with mode := VtmrMode.done } else timer

/-- The counter as `Timeout` and `Remain` compare it. -/
def unwrapNow (statics : Statics) (timer : Vtmr long) : UInt32 :=
  if long.widen statics.monotonic < timer.start then statics.monotonic + vtmrWraparound
  else statics.monotonic

/-- `Timeout`. -/
def timeout (statics : Statics) (timer : Vtmr long) : ℤ × Vtmr long :=
  let timer := settle timer
  if timer.mode = VtmrMode.done then (1, timer)
  else if timer.mode = VtmrMode.never then (0, timer)
  else if long.widen (unwrapNow statics timer) < timer.timeout then (0, timer)
  else (1, { timer with mode := VtmrMode.done })

/-- `Remain`. -/
def remain (statics : Statics) (timer : Vtmr long) : ℚ × Vtmr long :=
  let timer := settle timer
  if timer.mode = VtmrMode.done then (0, timer)
  else if timer.mode = VtmrMode.never then (-1, timer)
  else if timer.timeout ≤ long.widen (unwrapNow statics timer) then
    (0, { timer with mode := VtmrMode.done })
  else
    (((timer.timeout.toNat : ℚ) - ((unwrapNow statics timer).toNat : ℚ)) / statics.ticsPerSec,
      timer)

/-- `Elapsed`. -/
def elapsed (statics : Statics) (timer : Vtmr long) : ℚ :=
  if timer.mode = VtmrMode.uninitialized then -1
  else ((statics.monotonic.toNat : ℚ) - (timer.start.toNat : ℚ)) / statics.ticsPerSec

/-- What the main loop does to the counter in one tick. -/
def tick (monotonic : UInt32) : UInt32 :=
  if vtmrWraparound ≤ monotonic + 1 then 0 else monotonic + 1

/-- An `int` converted to `unsigned int`. -/
theorem toNat_toUInt32 (n : Int32) : (n.toUInt32.toNat : ℤ) = n.toInt % 2 ^ 32 := by
  have hbmod : n.toInt = (n.toUInt32.toNat : ℤ).bmod (2 ^ 32) := BitVec.toInt_eq_toNat_bmod _
  have hlt := n.toUInt32.toNat_lt
  rw [hbmod, Int.bmod_eq_emod]
  split <;> omega

/-- Adding an `int` to an `unsigned int`. -/
theorem toNat_add_toUInt32 (a : UInt32) (b : Int32) :
    (a + b.toUInt32).toNat = ((a.toNat + b.toInt) % 2 ^ 32).toNat := by
  have hb := toNat_toUInt32 b
  rw [UInt32.toNat_add]
  omega

/-! ## The counter -/

theorem toNat_vtmrWraparound : vtmrWraparound.toNat = 2 ^ 31 := rfl

theorem toNat_tick {monotonic : UInt32} (hlt : monotonic.toNat < 2 ^ 31) :
    (tick monotonic).toNat = WrapCounter.succ (2 ^ 31) monotonic.toNat := by
  have hnext : (monotonic + 1).toNat = monotonic.toNat + 1 := by
    rw [UInt32.toNat_add]
    simp only [UInt32.reduceToNat]
    omega
  unfold tick WrapCounter.succ
  simp only [UInt32.le_iff_toNat_le, toNat_vtmrWraparound, hnext]
  split
  · rfl
  · exact hnext

/-- The counter after one more tick. -/
theorem toNat_tick_of_mod {monotonic : UInt32} {n : ℕ} (hn : monotonic.toNat = n % 2 ^ 31) :
    (tick monotonic).toNat = (n + 1) % 2 ^ 31 := by
  have hpos : 0 < 2 ^ 31 := by omega
  have hlt : monotonic.toNat < 2 ^ 31 := by
    rw [hn]
    exact Nat.mod_lt n hpos
  calc (tick monotonic).toNat = WrapCounter.succ (2 ^ 31) monotonic.toNat := toNat_tick hlt
    _ = WrapCounter.succ (2 ^ 31) (n % 2 ^ 31) := by rw [hn]
    _ = (n + 1) % 2 ^ 31 := WrapCounter.succ_mod hpos n

/-- The addition in `Timeout` and `Remain` does not overflow for a counter below its period. -/
theorem toNat_unwrapNow {statics : Statics} {timer : Vtmr long}
    (hlt : statics.monotonic.toNat < 2 ^ 31) :
    (unwrapNow statics timer).toNat =
      WrapCounter.unwrap (2 ^ 31) timer.start.toNat statics.monotonic.toNat := by
  have hsum : (statics.monotonic + vtmrWraparound).toNat = statics.monotonic.toNat + 2 ^ 31 := by
    rw [UInt32.toNat_add, toNat_vtmrWraparound]
    omega
  unfold unwrapNow WrapCounter.unwrap
  simp only [BitVec.lt_def, long.toNat_widen]
  split
  · exact hsum
  · rfl

/-! ## The modes -/

section

variable {statics : Statics} {timer : Vtmr long}

theorem settle_of_uninitialized (hmode : timer.mode = VtmrMode.uninitialized) :
    settle timer = { timer with mode := VtmrMode.done } := by
  rw [settle, if_pos hmode]

theorem settle_of_ne (hmode : timer.mode ≠ VtmrMode.uninitialized) : settle timer = timer := by
  rw [settle, if_neg hmode]

/-- The tests of the modes fail for another mode. -/
theorem mode_ne {mode mode' : Int32} (hmode : timer.mode = mode) (hne : mode ≠ mode') :
    timer.mode ≠ mode' :=
  fun hmode' => hne (hmode.symm.trans hmode')

theorem timeout_of_uninitialized (hmode : timer.mode = VtmrMode.uninitialized) :
    timeout statics timer = (1, { timer with mode := VtmrMode.done }) := by
  unfold timeout
  rw [settle_of_uninitialized hmode]
  rfl

theorem timeout_of_done (hmode : timer.mode = VtmrMode.done) :
    timeout statics timer = (1, timer) := by
  unfold timeout
  rw [settle_of_ne (mode_ne hmode VtmrMode.done_ne_uninitialized)]
  simp only [if_pos hmode]

theorem timeout_of_never (hmode : timer.mode = VtmrMode.never) :
    timeout statics timer = (0, timer) := by
  have hdone : timer.mode ≠ VtmrMode.done := mode_ne hmode VtmrMode.never_ne_done
  unfold timeout
  rw [settle_of_ne (mode_ne hmode VtmrMode.never_ne_uninitialized)]
  simp only [if_pos hmode, if_neg hdone]

theorem timeout_of_active (hmode : timer.mode = VtmrMode.active) :
    timeout statics timer =
      if (unwrapNow statics timer).toNat < timer.timeout.toNat then (0, timer)
      else (1, { timer with mode := VtmrMode.done }) := by
  have hdone : timer.mode ≠ VtmrMode.done := mode_ne hmode VtmrMode.active_ne_done
  have hnever : timer.mode ≠ VtmrMode.never := mode_ne hmode VtmrMode.active_ne_never
  unfold timeout
  rw [settle_of_ne (mode_ne hmode VtmrMode.active_ne_uninitialized)]
  simp only [if_neg hdone, if_neg hnever, BitVec.lt_def, LongWidth.toNat_widen]

theorem settle_cases (timer : Vtmr long) :
    (settle timer = timer ∧ timer.mode ≠ VtmrMode.uninitialized) ∨
      settle timer = { timer with mode := VtmrMode.done } := by
  by_cases hmode : timer.mode = VtmrMode.uninitialized
  · exact .inr (settle_of_uninitialized hmode)
  · exact .inl ⟨settle_of_ne hmode, hmode⟩

theorem with_mode_eq {mode : Int32} (hmode : timer.mode = mode) :
    { timer with mode := mode } = timer := by
  rw [← hmode]

/-- A poll reports nothing and leaves the timer as it is, or reports expiry and leaves it done. -/
theorem timeout_cases (statics : Statics) (timer : Vtmr long) :
    (timeout statics timer = (0, timer) ∧ timer.mode ≠ VtmrMode.uninitialized) ∨
      timeout statics timer = (1, { timer with mode := VtmrMode.done }) := by
  unfold timeout
  rcases settle_cases timer with ⟨hsettle, hmode⟩ | hsettle
  · rw [hsettle]
    dsimp only
    by_cases hdone : timer.mode = VtmrMode.done
    · rw [if_pos hdone, with_mode_eq hdone]
      exact .inr rfl
    · rw [if_neg hdone]
      split
      · exact .inl ⟨rfl, hmode⟩
      · split
        · exact .inl ⟨rfl, hmode⟩
        · exact .inr rfl
  · rw [hsettle]
    exact .inr rfl

theorem remain_of_uninitialized (hmode : timer.mode = VtmrMode.uninitialized) :
    remain statics timer = (0, { timer with mode := VtmrMode.done }) := by
  unfold remain
  rw [settle_of_uninitialized hmode]
  rfl

theorem remain_of_done (hmode : timer.mode = VtmrMode.done) :
    remain statics timer = (0, timer) := by
  unfold remain
  rw [settle_of_ne (mode_ne hmode VtmrMode.done_ne_uninitialized)]
  simp only [if_pos hmode]

theorem remain_of_never (hmode : timer.mode = VtmrMode.never) :
    remain statics timer = (-1, timer) := by
  have hdone : timer.mode ≠ VtmrMode.done := mode_ne hmode VtmrMode.never_ne_done
  unfold remain
  rw [settle_of_ne (mode_ne hmode VtmrMode.never_ne_uninitialized)]
  simp only [if_pos hmode, if_neg hdone]

theorem remain_of_active (hmode : timer.mode = VtmrMode.active) :
    remain statics timer =
      if (unwrapNow statics timer).toNat < timer.timeout.toNat then
        (((timer.timeout.toNat : ℚ) - ((unwrapNow statics timer).toNat : ℚ)) / statics.ticsPerSec,
          timer)
      else (0, { timer with mode := VtmrMode.done }) := by
  have hdone : timer.mode ≠ VtmrMode.done := mode_ne hmode VtmrMode.active_ne_done
  have hnever : timer.mode ≠ VtmrMode.never := mode_ne hmode VtmrMode.active_ne_never
  unfold remain
  rw [settle_of_ne (mode_ne hmode VtmrMode.active_ne_uninitialized)]
  simp only [if_neg hdone, if_neg hnever, BitVec.le_def, LongWidth.toNat_widen]
  by_cases hlt : (unwrapNow statics timer).toNat < timer.timeout.toNat
  · rw [if_pos hlt, if_neg (not_le.mpr hlt)]
  · rw [if_neg hlt, if_pos (not_lt.mp hlt)]

/-- `Remain` leaves the timer as it is, or done. -/
theorem remain_cases (statics : Statics) (timer : Vtmr long) :
    ((remain statics timer).2 = timer ∧ timer.mode ≠ VtmrMode.uninitialized) ∨
      (remain statics timer).2 = { timer with mode := VtmrMode.done } := by
  unfold remain
  rcases settle_cases timer with ⟨hsettle, hmode⟩ | hsettle
  · rw [hsettle]
    dsimp only
    split
    · exact .inl ⟨rfl, hmode⟩
    · split
      · exact .inl ⟨rfl, hmode⟩
      · split
        · exact .inr rfl
        · exact .inl ⟨rfl, hmode⟩
  · rw [hsettle]
    exact .inr rfl

end

end XbeeAssignment.Timer
