import XbeeAssignment.Timer.Vtmr
import Mathlib.Tactic.Ring

/-!
# `TimerMainLoop`: the tick counter and the clock

The main loop reads the clock once a pass and counts a tick if its absolute
target `AbsTimer` has been reached, which then moves on by a millisecond.  Without
time jumps the target is the first reading and a millisecond for every tick
(`Clock.Kept`), so that a loop which is late stays due until it has caught up.
But a pass counts one tick at most and takes a millisecond or more (`usleep`): what
a pass takes beyond that is never made up for.

The lag after a pass is the time by which the target is behind the reading.  It is
bounded in a run exactly if the time the passes take beyond a millisecond each is
bounded in total (`keepsUp_iff`).

* If it is not, nothing helps, since there are no more ticks than passes.
* If it is, the lag is not simply that time: `sign` is an `int` of milliseconds,
  and once the lag is 2³¹ milliseconds it is taken for a target that lies ahead,
  and no tick is counted until the lag has grown by as much again.  `potential`
  is the lag with these stretches taken out, and no pass adds more to it than the
  time beyond a millisecond.
-/

namespace XbeeAssignment.Timer

/-! ## Data -/

/-- `struct timeval`. -/
structure Timeval where
  sec : ℤ
  usec : ℤ

namespace Timeval

def micros (t : Timeval) : ℤ := t.sec * 1000000 + t.usec

structure Normalised (t : Timeval) : Prop where
  nonneg : 0 ≤ t.usec
  lt : t.usec < 1000000

/-- The normalised time of so many microseconds. -/
def ofMicros (micros : ℤ) : Timeval :=
  { sec := micros / 1000000, usec := micros % 1000000 }

/-- The `while` loop after the increment of `AbsTimer`. -/
def carry (t : Timeval) : Timeval :=
  if 1000000 ≤ t.usec then carry { sec := t.sec + 1, usec := t.usec - 1000000 } else t
termination_by t.usec.toNat
decreasing_by
  show (t.usec - 1000000).toNat < t.usec.toNat
  omega

theorem micros_ofMicros (micros : ℤ) : (ofMicros micros).micros = micros := by
  show micros / 1000000 * 1000000 + micros % 1000000 = micros
  omega

theorem normalised_ofMicros (micros : ℤ) : (ofMicros micros).Normalised := by
  constructor
  · show 0 ≤ micros % 1000000
    omega
  · show micros % 1000000 < 1000000
    omega

theorem micros_carry (t : Timeval) : t.carry.micros = t.micros := by
  induction t using carry.induct with
  | case1 t hcarry ih =>
      rw [carry, if_pos hcarry, ih]
      unfold micros
      ring
  | case2 t hcarry => rw [carry, if_neg hcarry]

theorem normalised_carry {t : Timeval} (hnonneg : 0 ≤ t.usec) : t.carry.Normalised := by
  induction t using carry.induct with
  | case1 t hcarry ih =>
      rw [carry, if_pos hcarry]
      exact ih (Int.sub_nonneg_of_le hcarry)
  | case2 t hcarry =>
      rw [carry, if_neg hcarry]
      exact ⟨hnonneg, not_le.mp hcarry⟩

end Timeval

/-! ## The main loop -/

/-- `Onetic`, in microseconds. -/
def onetic : ℤ := 1000

/-- `JMPTRESHOLD`. -/
def jmpTreshold : ℤ := 200

/-- A `long` assigned to an `int`. -/
def asInt (n : ℤ) : ℤ := n.bmod (2 ^ 32)

/-- `dif`, in hundredths of a second. -/
def dif (prv now : Timeval) : ℤ :=
  asInt ((now.sec - prv.sec) * 100 + (now.usec - prv.usec).tdiv 10000)

/-- `sign`, in milliseconds. -/
def sign (absTimer now : Timeval) : ℤ :=
  asInt ((absTimer.sec - now.sec) * 1000 + (absTimer.usec - now.usec).tdiv 1000)

/-- The time between two readings is treated as a time jump. -/
def TimeJump (prv now : Timeval) : Prop :=
  dif prv now < 0 ∨ jmpTreshold < dif prv now

instance (prv now : Timeval) : Decidable (TimeJump prv now) :=
  inferInstanceAs (Decidable (_ ∨ _))

/-- The main loop's last reading, the static members it changes, and the ticks counted. -/
structure Clock where
  now : Timeval
  absTimer : Timeval
  monotonic : UInt32
  ticks : ℕ

namespace Clock

/-- Before the first pass. -/
def start (reading : Timeval) : Clock :=
  { now := reading, absTimer := reading, monotonic := 0, ticks := 0 }

/-- The target after a reading, which a time jump sets to it. -/
def target (c : Clock) (reading : Timeval) : Timeval :=
  if TimeJump c.now reading then reading else c.absTimer

/-- One pass of the loop. -/
def pass (c : Clock) (reading : Timeval) : Clock :=
  if sign (c.target reading) reading ≤ 0 then
    { now := reading
      absTimer := ({ c.target reading with usec := (c.target reading).usec + onetic }
        : Timeval).carry
      monotonic := tick c.monotonic
      ticks := c.ticks + 1 }
  else { c with now := reading, absTimer := c.target reading }

/-- After so many passes over a sequence of readings. -/
def after (readings : ℕ → Timeval) : ℕ → Clock
  | 0 => start (readings 0)
  | n + 1 => (after readings n).pass (readings (n + 1))

/-- The time by which the target is behind, in microseconds. -/
def lag (c : Clock) : ℤ := c.now.micros - c.absTimer.micros

/-! ## What a pass does -/

/-- A target one tick after a time. -/
theorem micros_advance (t : Timeval) :
    (({ t with usec := t.usec + onetic } : Timeval).carry).micros = t.micros + 1000 := by
  rw [Timeval.micros_carry]
  unfold Timeval.micros onetic
  ring

theorem normalised_advance {t : Timeval} (ht : t.Normalised) :
    ({ t with usec := t.usec + onetic } : Timeval).carry.Normalised :=
  Timeval.normalised_carry (Int.add_nonneg ht.nonneg (by decide))

/-- The target is the first reading and a millisecond for every tick. -/
structure Kept (first : Timeval) (c : Clock) : Prop where
  normalised : c.absTimer.Normalised
  absTimer : c.absTimer.micros = first.micros + 1000 * c.ticks
  monotonic : c.monotonic.toNat = c.ticks % 2 ^ 31

variable {first reading : Timeval} {c : Clock}

theorem start_kept (hnormalised : first.Normalised) : (start first).Kept first :=
  { normalised := hnormalised, absTimer := by simp [start], monotonic := rfl }

theorem pass_now (c : Clock) (reading : Timeval) : (c.pass reading).now = reading := by
  unfold pass
  split <;> rfl

/-- Without a time jump a pass counts a tick, unless the target is taken to lie ahead. -/
theorem pass_cases (hjump : ¬ TimeJump c.now reading) :
    (sign c.absTimer reading ≤ 0 ∧
      c.pass reading =
        { now := reading
          absTimer := ({ c.absTimer with usec := c.absTimer.usec + onetic } : Timeval).carry
          monotonic := tick c.monotonic
          ticks := c.ticks + 1 }) ∨
      (0 < sign c.absTimer reading ∧ c.pass reading = { c with now := reading }) := by
  have htarget : c.target reading = c.absTimer := by rw [target, if_neg hjump]
  unfold pass
  rw [htarget]
  by_cases hsign : sign c.absTimer reading ≤ 0
  · exact .inl ⟨hsign, by rw [if_pos hsign]⟩
  · exact .inr ⟨not_le.mp hsign, by rw [if_neg hsign]⟩

theorem Kept.pass (h : c.Kept first) (hjump : ¬ TimeJump c.now reading) :
    (c.pass reading).Kept first := by
  rcases pass_cases hjump with ⟨-, hpass⟩ | ⟨-, hpass⟩
  · rw [hpass]
    refine { normalised := ?_, absTimer := ?_, monotonic := ?_ }
    · exact normalised_advance h.normalised
    · rw [micros_advance, h.absTimer]
      push_cast
      ring
    · exact toNat_tick_of_mod h.monotonic
  · rw [hpass]
    exact { normalised := h.normalised, absTimer := h.absTimer, monotonic := h.monotonic }

theorem ticks_after_le (readings : ℕ → Timeval) (n : ℕ) : (after readings n).ticks ≤ n := by
  induction n with
  | zero => exact Nat.le_refl 0
  | succ n ih =>
      rw [after]
      unfold pass
      split
      · exact Nat.succ_le_succ ih
      · exact Nat.le_succ_of_le ih

/-! ## When the target is taken to lie ahead -/

/-- A number of microseconds divided as in C is rounded towards zero. -/
theorem tdiv_bounds (n : ℤ) {k : ℤ} (hpos : 0 < k) :
    (0 ≤ n → k * n.tdiv k ≤ n ∧ n < k * n.tdiv k + k) ∧
      (n ≤ 0 → n ≤ k * n.tdiv k ∧ k * n.tdiv k < n + k) := by
  have hrem := Int.mul_tdiv_add_tmod n k
  constructor
  · intro hnonneg
    have hlow := Int.tmod_nonneg k hnonneg
    have hhigh := Int.tmod_lt_of_pos n hpos
    omega
  · intro hnonpos
    have hlow := Int.tmod_nonneg k (show 0 ≤ -n by omega)
    have hhigh := Int.tmod_lt_of_pos (-n) hpos
    rw [Int.neg_tmod] at hlow hhigh
    omega

/-- An `int` is positive if the number assigned to it is in the lower half of a period. -/
theorem asInt_pos {n : ℤ} (hpos : 0 < asInt n) : 0 < n % 2 ^ 32 ∧ n % 2 ^ 32 < 2 ^ 31 := by
  unfold asInt at hpos
  rw [Int.bmod_eq_emod] at hpos
  split at hpos <;> omega

/-- A target is taken to lie ahead only if it is behind by more than 2³¹ milliseconds, not
counting whole periods of 2³². -/
theorem lag_of_sign_pos {absTimer : Timeval} (habs : absTimer.Normalised)
    (hreading : reading.Normalised) (hsign : 0 < sign absTimer reading) :
    2147483648000 < (reading.micros - absTimer.micros) % 4294967296000 := by
  have hrange := asInt_pos hsign
  have hdiv := tdiv_bounds (absTimer.usec - reading.usec) (k := 1000) (by omega)
  have habsLow := habs.nonneg
  have habsHigh := habs.lt
  have hreadingLow := hreading.nonneg
  have hreadingHigh := hreading.lt
  unfold Timeval.micros
  omega

/-- The lag without the stretches in which the target is taken to lie ahead. -/
def potential (lag : ℤ) : ℤ :=
  lag / 4294967296000 * 2147483647000 + min (lag % 4294967296000) 2147483647000

/-- A tick counted: what the lag grows by is at least what the potential grows by. -/
theorem potential_le_of_tick {lag lag' : ℤ} (hle : lag ≤ lag') :
    potential lag' ≤ potential lag + (lag' - lag) := by
  unfold potential
  omega

/-- No tick counted: the potential is already as large as it gets in this period. -/
theorem potential_le_of_skip {lag gap : ℤ} (hgap : 1000 ≤ gap)
    (hskip : 2147483648000 < (lag + gap) % 4294967296000) :
    potential (lag + gap) ≤ potential lag + (gap - 1000) := by
  unfold potential
  omega

theorem lag_le_potential {lag : ℤ} (hnonneg : 0 ≤ lag) :
    lag ≤ 3 * potential lag + 4294967296000 := by
  unfold potential
  omega

/-! ## The lag after a run -/

/-- Readings of a clock a millisecond or more apart, none of them treated as a time jump. -/
structure Steady (readings : ℕ → Timeval) : Prop where
  normalised : ∀ n, (readings n).Normalised
  apart : ∀ n, (readings n).micros + 1000 ≤ (readings (n + 1)).micros
  no_jump : ∀ n, ¬ TimeJump (readings n) (readings (n + 1))

/-- The time since the first reading. -/
def elapsedMicros (readings : ℕ → Timeval) (n : ℕ) : ℤ :=
  (readings n).micros - (readings 0).micros

variable {readings : ℕ → Timeval}

theorem after_now (readings : ℕ → Timeval) (n : ℕ) : (after readings n).now = readings n := by
  cases n with
  | zero => rfl
  | succ n => exact pass_now _ _

/-- A pass takes its last reading for the one before. -/
theorem not_timeJump_after (hno : ∀ n, ¬ TimeJump (readings n) (readings (n + 1))) (n : ℕ) :
    ¬ TimeJump (after readings n).now (readings (n + 1)) := by
  rw [after_now]
  exact hno n

/-- Without time jumps the target is kept over the whole run. -/
theorem after_kept (hfirst : (readings 0).Normalised)
    (hno : ∀ n, ¬ TimeJump (readings n) (readings (n + 1))) (n : ℕ) :
    (after readings n).Kept (readings 0) := by
  induction n with
  | zero => exact start_kept hfirst
  | succ n ih => exact ih.pass (not_timeJump_after hno n)

theorem Steady.not_timeJump (h : Steady readings) (n : ℕ) :
    ¬ TimeJump (after readings n).now (readings (n + 1)) :=
  not_timeJump_after h.no_jump n

theorem Steady.kept (h : Steady readings) (n : ℕ) : (after readings n).Kept (readings 0) :=
  after_kept (h.normalised 0) h.no_jump n

theorem Steady.lag_eq (h : Steady readings) (n : ℕ) :
    (after readings n).lag = elapsedMicros readings n - 1000 * (after readings n).ticks := by
  have htarget := (h.kept n).absTimer
  rw [lag, after_now, htarget, elapsedMicros]
  omega

/-- One pass: the lag stays what it is or grows, and the potential grows by no more than the time
the pass takes beyond a millisecond. -/
theorem Steady.pass (h : Steady readings) (n : ℕ) :
    (0 ≤ (after readings n).lag → 0 ≤ (after readings (n + 1)).lag) ∧
      potential (after readings (n + 1)).lag ≤ potential (after readings n).lag +
        (elapsedMicros readings (n + 1) - elapsedMicros readings n - 1000) := by
  have hlag := h.lag_eq n
  have hlag' := h.lag_eq (n + 1)
  have hapart := h.apart n
  have hgap : elapsedMicros readings n + 1000 ≤ elapsedMicros readings (n + 1) := by
    unfold elapsedMicros
    omega
  rcases pass_cases (h.not_timeJump n) with ⟨-, hpass⟩ | ⟨hsign, hpass⟩
  · have hticks : (after readings (n + 1)).ticks = (after readings n).ticks + 1 := by
      rw [after, hpass]
    rw [hticks] at hlag'
    push_cast at hlag'
    have hle : (after readings n).lag ≤ (after readings (n + 1)).lag := by omega
    refine ⟨fun hnonneg => hnonneg.trans hle, ?_⟩
    calc potential (after readings (n + 1)).lag
        ≤ potential (after readings n).lag +
            ((after readings (n + 1)).lag - (after readings n).lag) := potential_le_of_tick hle
      _ = potential (after readings n).lag +
            (elapsedMicros readings (n + 1) - elapsedMicros readings n - 1000) := by omega
  · -- the time of the pass is added to the lag
    have hticks : (after readings (n + 1)).ticks = (after readings n).ticks := by
      rw [after, hpass]
    rw [hticks] at hlag'
    have hadd : (after readings (n + 1)).lag = (after readings n).lag +
        (elapsedMicros readings (n + 1) - elapsedMicros readings n) := by omega
    have hskip := lag_of_sign_pos (h.kept n).normalised (h.normalised (n + 1)) hsign
    have hbefore : (readings (n + 1)).micros - (after readings n).absTimer.micros =
        (after readings n).lag +
          (elapsedMicros readings (n + 1) - elapsedMicros readings n) := by
      rw [lag, after_now, elapsedMicros, elapsedMicros]
      omega
    rw [hbefore] at hskip
    rw [hadd]
    exact ⟨fun hnonneg => by omega, potential_le_of_skip (by omega) hskip⟩

theorem Steady.potential_le (h : Steady readings) (n : ℕ) :
    0 ≤ (after readings n).lag ∧
      potential (after readings n).lag ≤ elapsedMicros readings n - 1000 * n := by
  induction n with
  | zero =>
      have hzero : (after readings 0).lag = 0 := sub_self _
      rw [hzero]
      refine ⟨Int.le_refl 0, ?_⟩
      have helapsed : elapsedMicros readings 0 = 0 := sub_self _
      rw [helapsed]
      decide
  | succ n ih =>
      obtain ⟨hlag, hpotential⟩ := h.pass n
      refine ⟨hlag ih.1, ?_⟩
      calc potential (after readings (n + 1)).lag
          ≤ potential (after readings n).lag +
              (elapsedMicros readings (n + 1) - elapsedMicros readings n - 1000) := hpotential
        _ ≤ elapsedMicros readings n - 1000 * n +
              (elapsedMicros readings (n + 1) - elapsedMicros readings n - 1000) :=
            Int.add_le_add_right ih.2 _
        _ = elapsedMicros readings (n + 1) - 1000 * (n + 1 : ℕ) := by
            push_cast
            omega

/-- The ticks never fall behind the milliseconds elapsed by more than some constant. -/
def KeepsUp (readings : ℕ → Timeval) : Prop :=
  ∃ c : ℤ, ∀ n, elapsedMicros readings n / 1000 - c ≤ (after readings n).ticks

/-- The time the passes take beyond a millisecond each is bounded in total. -/
def BoundedExcess (readings : ℕ → Timeval) : Prop :=
  ∃ e : ℤ, ∀ n : ℕ, elapsedMicros readings n - 1000 * n ≤ e

/-- **Keeping up.**  The ticks fall behind the clock by a bounded number exactly if the time the
passes take beyond a millisecond each is bounded in total. -/
theorem keepsUp_iff (readings : ℕ → Timeval) (h : Steady readings) :
    KeepsUp readings ↔ BoundedExcess readings := by
  constructor
  · rintro ⟨c, hc⟩
    refine ⟨1000 * c + 1000, fun n => ?_⟩
    have hbehind := hc n
    have hticks := ticks_after_le readings n
    omega
  · rintro ⟨e, he⟩
    refine ⟨(3 * e + 4294967296000) / 1000 + 1, fun n => ?_⟩
    obtain ⟨hlag, hpotential⟩ := h.potential_le n
    have hbound := lag_le_potential hlag
    have hexcess := he n
    have heq := h.lag_eq n
    omega

/-! ## Readings at a constant rate -/

/-- A gap of less than two seconds is not treated as a time jump. -/
theorem not_timeJump {prv now : Timeval} (hprv : prv.Normalised) (hnow : now.Normalised)
    (hle : prv.micros ≤ now.micros) (hlt : now.micros < prv.micros + 1990000) :
    ¬ TimeJump prv now := by
  have hdiv := tdiv_bounds (now.usec - prv.usec) (k := 10000) (by omega)
  have hprvLow := hprv.nonneg
  have hprvHigh := hprv.lt
  have hnowLow := hnow.nonneg
  have hnowHigh := hnow.lt
  unfold Timeval.micros at hle hlt
  unfold TimeJump dif asInt jmpTreshold
  rw [Int.bmod_eq_of_le (by omega) (by omega)]
  omega

/-- A reading every `gap` microseconds. -/
def everyMicros (gap : ℤ) (n : ℕ) : Timeval := Timeval.ofMicros (gap * n)

theorem elapsedMicros_everyMicros (gap : ℤ) (n : ℕ) :
    elapsedMicros (everyMicros gap) n = gap * n := by
  unfold elapsedMicros everyMicros
  rw [Timeval.micros_ofMicros, Timeval.micros_ofMicros]
  simp

theorem steady_everyMicros {gap : ℤ} (hlow : 1000 ≤ gap) (hhigh : gap < 1990000) :
    Steady (everyMicros gap) := by
  have hnext : ∀ n : ℕ, (everyMicros gap (n + 1)).micros = (everyMicros gap n).micros + gap := by
    intro n
    unfold everyMicros
    rw [Timeval.micros_ofMicros, Timeval.micros_ofMicros]
    push_cast
    ring
  refine { normalised := fun n => Timeval.normalised_ofMicros _, apart := ?_, no_jump := ?_ }
  · intro n
    rw [hnext n]
    omega
  · intro n
    apply not_timeJump (Timeval.normalised_ofMicros _) (Timeval.normalised_ofMicros _)
    · have hstep := hnext n
      unfold everyMicros at hstep
      omega
    · have hstep := hnext n
      unfold everyMicros at hstep
      omega

/-- Passes of exactly a millisecond. -/
theorem keepsUp_every_millisecond : KeepsUp (everyMicros 1000) :=
  (keepsUp_iff _ (steady_everyMicros (by decide) (by decide))).mpr
    ⟨0, fun n => by rw [elapsedMicros_everyMicros, sub_self]⟩

/-- Passes of two milliseconds: half the time is lost. -/
theorem not_keepsUp_every_two :
    Steady (everyMicros 2000) ∧ ¬ KeepsUp (everyMicros 2000) := by
  refine ⟨steady_everyMicros (by decide) (by decide), ?_⟩
  rintro ⟨c, hc⟩
  have hbehind := hc (c.toNat + 1)
  have hticks := ticks_after_le (everyMicros 2000) (c.toNat + 1)
  rw [elapsedMicros_everyMicros] at hbehind
  push_cast at hbehind
  omega

end Clock

end XbeeAssignment.Timer
