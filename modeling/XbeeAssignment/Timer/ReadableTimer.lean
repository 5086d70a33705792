import XbeeAssignment.Lib.MixedRadix
import XbeeAssignment.Timer.Double

/-!
# The readable time

`Elapsed(struct _ReadableTimer*)` takes the milliseconds apart into years, months
of 30 days, days and so on, one `ConvTime` for each.  The periods are products of
two `int`s, and the two longest do not fit: a year comes out as 1492828928
milliseconds, 17 days, and a month as a number that no time reaches.

Below 17 days neither is reached, nor would the intended ones be, and the fields
are the digits of the time in the intended periods: of all of it, unless the
product of `Elapsed` and a thousand is rounded to just below a whole number
(`decomposes_iff`).

`ElapsedMsec` puts together two of the seven fields, the seconds and the
milliseconds, which is the time as long as it is below a minute, with the same
exception (`elapsed_msec_iff`).
-/

namespace XbeeAssignment.Timer

open Truncation MixedRadix Transition

/-! ## The functions -/

/-- `struct _ReadableTimer`. -/
structure ReadableTimer where
  years : Int32
  months : Int32
  days : Int32
  hours : Int32
  minutes : Int32
  secs : Int32
  mSecs : Int32
  deriving DecidableEq

/-- A `double` converted to `unsigned long long`. -/
abbrev ULongLongConversion := Conversion ℚ (fun n : UInt64 => (n.toNat : ℤ)) 0 (2 ^ 64 - 1)

/-- The conversion that gives `other` beyond the range of `unsigned long long`. -/
def ULongLongConversion.withDefault (other : UInt64) : ULongLongConversion :=
  Conversion.withDefault UInt64.ofInt
    (fun n hlow hhigh => by
      rw [UInt64.ofInt, Int.emod_eq_of_lt hlow (by omega), UInt64.toNat_ofNat']
      omega) other

theorem toNat_pos {n : UInt64} (hn : n ≠ 0) : 0 < n.toNat :=
  Nat.pos_of_ne_zero fun hzero => hn (UInt64.toNat_inj.mp hzero)

/-- The loop of `ConvTime`. -/
def convTimeLoop (period : UInt64) (hperiod : period ≠ 0) (now : UInt64) (field : Int32) :
    UInt64 × Int32 :=
  if period ≤ now then convTimeLoop period hperiod (now - period) (field + 1) else (now, field)
termination_by now.toNat
decreasing_by
  rename_i hle
  have hpos : 0 < period.toNat := toNat_pos hperiod
  rw [UInt64.toNat_sub_of_le _ _ hle]
  have hle' := UInt64.le_iff_toNat_le.mp hle
  omega

/-- `ConvTime`: what it leaves in `*pNow`, and `*pField`. -/
def convTime (now period : UInt64) : UInt64 × Int32 :=
  if hperiod : period = 0 then (now, now.toUInt32.toInt32)
  else convTimeLoop period hperiod now 0

/-- A product of two `int`s converted to `unsigned long long`. -/
def intPeriod (count unit : Int32) : UInt64 :=
  (count * unit).toInt64.toUInt64

/-- `Elapsed(struct _ReadableTimer*)`, from `Now` on. -/
def readable (now : UInt64) : ReadableTimer :=
  let years := convTime now (intPeriod 31557600 1000)
  let months := convTime years.1 (intPeriod 2592000 1000)
  let days := convTime months.1 (intPeriod 86400 1000)
  let hours := convTime days.1 (intPeriod 3600 1000)
  let minutes := convTime hours.1 (intPeriod 60 1000)
  let secs := convTime minutes.1 1000
  let mSecs := convTime secs.1 0
  { years := years.2, months := months.2, days := days.2, hours := hours.2, minutes := minutes.2,
    secs := secs.2, mSecs := mSecs.2 }

variable {long : LongWidth}

/-- `Elapsed(struct _ReadableTimer*)`. -/
def elapsedReadable (conv : ULongLongConversion) (statics : Statics) (timer : Vtmr long) :
    ReadableTimer :=
  readable (conv.convert (toDouble (elapsedDouble statics timer * 1000)))

/-- `ElapsedMsec`. -/
def elapsedMsec (conv : ULongLongConversion) (statics : Statics) (timer : Vtmr long) : UInt32 :=
  ((elapsedReadable conv statics timer).secs * 1000 +
    (elapsedReadable conv statics timer).mSecs).toUInt32

/-! ## The fields are digits -/

/-- `ConvTime` counts the periods and leaves the rest. -/
theorem convTimeLoop_eq (period : UInt64) (hperiod : period ≠ 0) (now : UInt64) (field : Int32) :
    (convTimeLoop period hperiod now field).1.toNat = now.toNat % period.toNat ∧
      (convTimeLoop period hperiod now field).2 =
        field + Int32.ofNat (now.toNat / period.toNat) := by
  have hpos : 0 < period.toNat := toNat_pos hperiod
  induction now, field using convTimeLoop.induct period hperiod with
  | case1 now field hle ih =>
      have hle' := UInt64.le_iff_toNat_le.mp hle
      rw [convTimeLoop, if_pos hle, ih.1, ih.2, UInt64.toNat_sub_of_le _ _ hle]
      refine ⟨(Nat.mod_eq_sub_mod hle').symm, ?_⟩
      rw [Nat.div_eq_sub_div hpos hle', Int32.ofNat_add, Int32.add_assoc,
        Int32.add_comm (Int32.ofNat _)]
      rfl
  | case2 now field hgt =>
      have hlt : now.toNat < period.toNat :=
        not_le.mp fun hle => hgt (UInt64.le_iff_toNat_le.mpr hle)
      rw [convTimeLoop, if_neg hgt, Nat.mod_eq_of_lt hlt, Nat.div_eq_of_lt hlt]
      exact ⟨rfl, (Int32.add_zero field).symm⟩

theorem convTime_eq (now period : UInt64) (hperiod : period ≠ 0) :
    (convTime now period).1.toNat = now.toNat % period.toNat ∧
      (convTime now period).2 = Int32.ofNat (now.toNat / period.toNat) := by
  rw [convTime, dif_neg hperiod]
  obtain ⟨hrest, hfield⟩ := convTimeLoop_eq period hperiod now 0
  exact ⟨hrest, by rw [hfield, Int32.zero_add]⟩

/-- A call of `ConvTime` for each period in turn, and one for what is left. -/
def convTimes (now : UInt64) : List UInt64 → List Int32
  | [] => [(convTime now 0).2]
  | period :: periods => (convTime now period).2 :: convTimes (convTime now period).1 periods

/-- The calls write a number in the given periods. -/
theorem convTimes_eq (now : UInt64) {periods : List UInt64} (hperiods : ∀ p ∈ periods, p ≠ 0) :
    convTimes now periods = (digits (periods.map UInt64.toNat) now.toNat).map Int32.ofNat := by
  induction periods generalizing now with
  | nil => rfl
  | cons period periods ih =>
      obtain ⟨hrest, hfield⟩ := convTime_eq now period (hperiods period (List.mem_cons_self ..))
      have hothers := ih (convTime now period).1 fun p hp => hperiods p (List.mem_cons_of_mem _ hp)
      rw [convTimes, hothers, hrest, hfield]
      rfl

def ReadableTimer.fields (t : ReadableTimer) : List Int32 :=
  [t.years, t.months, t.days, t.hours, t.minutes, t.secs, t.mSecs]

/-- The periods of a year and of a month, as they come out of the multiplication. -/
def overflownPeriods : List ℕ := [1492828928, 18446744072006584320]

/-- The periods of a year and of a month. -/
def longPeriods : List ℕ := [31557600000, 2592000000]

/-- The periods from a day to a second. -/
def shortPeriods : List ℕ := [86400000, 3600000, 60000, 1000]

/-- The periods of the calls of `ConvTime`, but the last. -/
def convPeriods : List UInt64 :=
  [intPeriod 31557600 1000, intPeriod 2592000 1000, intPeriod 86400 1000, intPeriod 3600 1000,
    intPeriod 60 1000, 1000]

theorem convPeriods_ne_zero (p : UInt64) (hp : p ∈ convPeriods) : p ≠ 0 := by
  simp only [convPeriods, List.mem_cons, List.not_mem_nil, or_false] at hp
  rcases hp with rfl | rfl | rfl | rfl | rfl | rfl <;> decide

/-- The fields are the digits of the time in the periods that the code computes. -/
theorem fields_readable (now : UInt64) :
    (readable now).fields =
      (digits (overflownPeriods ++ shortPeriods) now.toNat).map Int32.ofNat := by
  have hchain : (readable now).fields = convTimes now convPeriods := rfl
  have hperiods : convPeriods.map UInt64.toNat = overflownPeriods ++ shortPeriods := by decide
  rw [hchain, convTimes_eq now convPeriods_ne_zero, hperiods]

/-- Below the period that a year comes out as, they are those in the intended periods. -/
theorem fields_readable_of_lt {now : UInt64} (hlt : now.toNat < 1492828928) :
    (readable now).fields =
      (digits (longPeriods ++ shortPeriods) now.toNat).map Int32.ofNat := by
  have hoverflown : ∀ period ∈ overflownPeriods, now.toNat < period := by
    simp [overflownPeriods]
    omega
  have hlong : ∀ period ∈ longPeriods, now.toNat < period := by
    simp [longPeriods]
    omega
  rw [fields_readable, digits_append hoverflown, digits_append hlong]
  rfl

/-- The digits of a number of less than 2³¹, read off fields of `int`. -/
theorem digits_eq_fields {t : ReadableTimer} {periods : List ℕ} {n : ℕ}
    (hfields : t.fields = (digits periods n).map Int32.ofNat) (hn : n < 2 ^ 31) :
    digits periods n = t.fields.map (fun field => field.toInt.toNat) ∧
      ∀ field ∈ t.fields, 0 ≤ field.toInt := by
  have hvalue : ∀ digit ∈ digits periods n, (Int32.ofNat digit).toInt = digit := by
    intro digit hdigit
    exact Int32.toInt_ofNat_of_lt ((le_of_mem_digits hdigit).trans_lt hn)
  rw [hfields]
  constructor
  · rw [List.map_map]
    refine (List.map_id _).symm.trans (List.map_congr_left fun digit hdigit => ?_)
    rw [Function.comp_apply, hvalue digit hdigit]
    rfl
  · intro field hfield
    obtain ⟨digit, hdigit, rfl⟩ := List.mem_map.mp hfield
    rw [hvalue digit hdigit]
    exact Int.natCast_nonneg digit

/-- The fields make up the time in these periods. -/
theorem value_fields {t : ReadableTimer} {periods : List ℕ} {n : ℕ}
    (hfields : t.fields = (digits periods n).map Int32.ofNat) (hn : n < 2 ^ 31)
    (hpos : ∀ period ∈ periods, 0 < period) :
    value periods (t.fields.map fun field => field.toInt.toNat) = n ∧
      Bounded periods (t.fields.map fun field => field.toInt.toNat) ∧
      ∀ field ∈ t.fields, 0 ≤ field.toInt := by
  obtain ⟨hdigits, hnonneg⟩ := digits_eq_fields hfields hn
  rw [← hdigits]
  exact ⟨value_digits periods n, bounded_digits hpos n, hnonneg⟩

/-! ## The decomposition -/

/-- The fields are a decomposition of `n` milliseconds. -/
structure Decomposes (t : ReadableTimer) (n : ℕ) : Prop where
  total : t.years.toInt * 31557600000 + t.months.toInt * 2592000000 + t.days.toInt * 86400000 +
    t.hours.toInt * 3600000 + t.minutes.toInt * 60000 + t.secs.toInt * 1000 + t.mSecs.toInt = n
  belowYears : t.months.toInt * 2592000000 + t.days.toInt * 86400000 + t.hours.toInt * 3600000 +
    t.minutes.toInt * 60000 + t.secs.toInt * 1000 + t.mSecs.toInt < 31557600000
  belowMonths : t.days.toInt * 86400000 + t.hours.toInt * 3600000 + t.minutes.toInt * 60000 +
    t.secs.toInt * 1000 + t.mSecs.toInt < 2592000000
  hours : t.hours.toInt < 24
  minutes : t.minutes.toInt < 60
  secs : t.secs.toInt < 60
  mSecs : t.mSecs.toInt < 1000

/-- The digits in the intended periods are one. -/
theorem decomposes_of_fields {t : ReadableTimer} {n : ℕ} (hn : n < 2 ^ 31)
    (hfields : t.fields = (digits (longPeriods ++ shortPeriods) n).map Int32.ofNat) :
    Decomposes t n := by
  obtain ⟨hvalue, hbounded, hnonneg⟩ := value_fields hfields hn (by decide)
  simp only [ReadableTimer.fields, longPeriods, shortPeriods, List.map_cons, List.map_nil,
    List.cons_append, List.nil_append, value, Bounded, List.forall_mem_cons]
    at hvalue hbounded hnonneg
  obtain ⟨hyears, hmonths, hdays, hhours, hminutes, hsecs, hmSecs, -⟩ := hnonneg
  -- the fields as natural numbers
  obtain ⟨years, hyears⟩ := Int.eq_ofNat_of_zero_le hyears
  obtain ⟨months, hmonths⟩ := Int.eq_ofNat_of_zero_le hmonths
  obtain ⟨days, hdays⟩ := Int.eq_ofNat_of_zero_le hdays
  obtain ⟨hours, hhours⟩ := Int.eq_ofNat_of_zero_le hhours
  obtain ⟨minutes, hminutes⟩ := Int.eq_ofNat_of_zero_le hminutes
  obtain ⟨secs, hsecs⟩ := Int.eq_ofNat_of_zero_le hsecs
  obtain ⟨mSecs, hmSecs⟩ := Int.eq_ofNat_of_zero_le hmSecs
  simp only [hyears, hmonths, hdays, hhours, hminutes, hsecs, hmSecs, Int.toNat_natCast]
    at hvalue hbounded
  constructor <;> omega

/-- `Now` is the elapsed time in milliseconds, or one less. -/
theorem toNat_now (conv : ULongLongConversion) {statics : Statics} {timer : Vtmr long} {n : ℕ}
    (hrate : statics.ticsPerSec = timerFreq) (hn : n < 2 ^ 31)
    (helapsed : elapsed statics timer = (n : ℚ) / 1000) :
    (conv.convert (toDouble (elapsedDouble statics timer * 1000))).toNat = keptMilliseconds n := by
  have htruncate := truncate_milliseconds hn
  have hle := keptMilliseconds_le n
  rw [← elapsedDouble_of_elapsed hrate helapsed] at htruncate
  have hfits : Fits 0 (2 ^ 64 - 1) (toDouble (elapsedDouble statics timer * 1000)) := by
    rw [Fits, htruncate]
    omega
  have hvalue := conv.value_convert _ hfits
  rw [htruncate] at hvalue
  exact_mod_cast hvalue

/-- **The readable time.**  The fields are a decomposition of the elapsed time exactly if it is
below 1492828928 milliseconds, 17 days, and no millisecond is lost in `double`. -/
theorem decomposes_iff (conv : ULongLongConversion) (statics : Statics) (timer : Vtmr long) (n : ℕ)
    (hrate : statics.ticsPerSec = timerFreq) (hn : n < 2 ^ 31)
    (helapsed : elapsed statics timer = (n : ℚ) / 1000) :
    Decomposes (elapsedReadable conv statics timer) n ↔ n < 1492828928 ∧ ¬ LosesMillisecond n := by
  have hnow := toNat_now conv hrate hn helapsed
  have hkept := keptMilliseconds_le n
  have hfields := fields_readable (conv.convert (toDouble (elapsedDouble statics timer * 1000)))
  rw [← elapsedReadable, hnow] at hfields
  rw [← keptMilliseconds_eq_iff]
  constructor
  · intro hdecomposes
    have htotal := hdecomposes.total
    have hlt : keptMilliseconds n < 1492828928 := by
      by_contra hlarge
      obtain ⟨hdigits, hnonneg⟩ := digits_eq_fields hfields (by omega)
      -- what is taken for a year is in it once, and counts as a year
      have hyears : keptMilliseconds n / 1492828928 =
          (elapsedReadable conv statics timer).years.toInt.toNat := (List.cons.inj hdigits).1
      simp only [ReadableTimer.fields, List.forall_mem_cons] at hnonneg
      obtain ⟨-, hmonths, hdays, hhours, hminutes, hsecs, hmSecs, -⟩ := hnonneg
      omega
    -- the fields make up what has come out of the product
    have hmakes : Decomposes (elapsedReadable conv statics timer) (keptMilliseconds n) := by
      apply decomposes_of_fields (by omega)
      rw [elapsedReadable, fields_readable_of_lt (by omega), hnow]
    have htotal' := hmakes.total
    omega
  · rintro ⟨hlt, heq⟩
    apply decomposes_of_fields hn
    rw [elapsedReadable, fields_readable_of_lt (by omega), hnow, heq]

/-- A timer that has run for so many milliseconds, on a counter that has not started over. -/
def runningTimer (long : LongWidth) : Vtmr long :=
  { mode := VtmrMode.active, start := 0, timeout := 0 }

theorem elapsed_runningTimer (now : UInt32) :
    elapsed (.running now) (runningTimer long) = (now.toNat : ℚ) / 1000 := by
  have hzero : (runningTimer long).start.toNat = 0 := BitVec.toNat_ofNat 0 _
  have hmode : (runningTimer long).mode ≠ VtmrMode.uninitialized := VtmrMode.active_ne_uninitialized
  rw [elapsed, if_neg hmode, hzero]
  simp [Statics.running, timerFreq]

/-- A day, an hour and a minute. -/
theorem decomposes_day :
    Decomposes (elapsedReadable (.withDefault 0) (.running 90060000) (runningTimer .bits64))
      90060000 :=
  (decomposes_iff _ _ _ _ rfl (by decide) (elapsed_runningTimer _)).mpr (by decide)

/-- The day on which a timer has run for 1492828928 milliseconds: a year. -/
theorem not_decomposes_overflown :
    elapsed (.running 1492828928) (runningTimer .bits32) = (1492828928 : ℕ) / 1000 ∧
      ¬ Decomposes
          (elapsedReadable (.withDefault 0) (.running 1492828928) (runningTimer .bits32))
          1492828928 := by
  have helapsed : elapsed (.running 1492828928) (runningTimer .bits32) = (1492828928 : ℕ) / 1000 :=
    elapsed_runningTimer 1492828928
  refine ⟨helapsed, fun hdecomposes => ?_⟩
  have hlt := ((decomposes_iff _ _ _ _ rfl (by decide) helapsed).mp hdecomposes).1
  exact absurd hlt (by decide)

/-! ## `ElapsedMsec` -/

/-- The sum of seconds and milliseconds does not overflow below a minute. -/
theorem toNat_secs_mSecs {t : ReadableTimer} (hsecs : 0 ≤ t.secs.toInt) (hmSecs : 0 ≤ t.mSecs.toInt)
    (hlt : t.secs.toInt * 1000 + t.mSecs.toInt < 60000) :
    ((t.secs * 1000 + t.mSecs).toUInt32.toNat : ℤ) = t.secs.toInt * 1000 + t.mSecs.toInt := by
  have hthousand : (1000 : Int32).toInt = 1000 := by decide
  have hproduct : (t.secs * 1000).toInt = t.secs.toInt * 1000 := by
    rw [Int32.toInt_mul, hthousand, Int.bmod_eq_of_le (by omega) (by omega)]
  calc ((t.secs * 1000 + t.mSecs).toUInt32.toNat : ℤ) = (t.secs * 1000 + t.mSecs).toInt % 2 ^ 32 :=
        toNat_toUInt32 _
    _ = (t.secs.toInt * 1000 + t.mSecs.toInt) % 2 ^ 32 := by
        rw [Int32.toInt_add, hproduct, Int.bmod_eq_of_le (by omega) (by omega)]
    _ = t.secs.toInt * 1000 + t.mSecs.toInt := by omega

/-- `ElapsedMsec` returns less than a minute, and what comes out of the product if the time is less
than a minute. -/
theorem elapsedMsec_spec (conv : ULongLongConversion) {statics : Statics} {timer : Vtmr long}
    {n : ℕ} (hrate : statics.ticsPerSec = timerFreq) (hn : n < 2 ^ 31)
    (helapsed : elapsed statics timer = (n : ℚ) / 1000) :
    (elapsedMsec conv statics timer).toNat < 60000 ∧
      (n < 60000 → (elapsedMsec conv statics timer).toNat = keptMilliseconds n) := by
  have hkept := keptMilliseconds_le n
  have hfields := fields_readable (conv.convert (toDouble (elapsedDouble statics timer * 1000)))
  rw [toNat_now conv hrate hn helapsed] at hfields
  obtain ⟨hvalue, hbounded, hnonneg⟩ := value_fields hfields (by omega) (by decide)
  simp only [ReadableTimer.fields, overflownPeriods, shortPeriods, List.map_cons, List.map_nil,
    List.cons_append, List.nil_append, value, Bounded, List.forall_mem_cons]
    at hvalue hbounded hnonneg
  obtain ⟨hyears, hmonths, hdays, hhours, hminutes, hsecs, hmSecs, -⟩ := hnonneg
  rw [← elapsedReadable] at hvalue hbounded hsecs hmSecs
  have hsum := toNat_secs_mSecs hsecs hmSecs (by omega)
  rw [elapsedMsec]
  omega

namespace Polling

/-- `ElapsedMsec` returns the milliseconds since `Set`. -/
def MeasuresElapsed (conv : ULongLongConversion) (p : Polling long) : Prop :=
  (elapsedMsec conv p.statics p.timer).toNat = p.elapsed

/-- Below a minute it returns what comes out of the product. -/
theorem Started.elapsedMsec_eq (conv : ULongLongConversion) {s : ℕ} {p : Polling long}
    (h : Started s p) (hwrap : s + p.elapsed < 2 ^ 31) (hlt : p.elapsed < 60000) :
    (elapsedMsec conv p.statics p.timer).toNat = keptMilliseconds p.elapsed :=
  (elapsedMsec_spec conv h.ticsPerSec (by omega) (h.elapsed_eq_iff.mpr hwrap)).2 hlt

theorem Started.measuresElapsed_iff (conv : ULongLongConversion) {s : ℕ} {p : Polling long}
    (h : Started s p) (hwrap : s + p.elapsed < 2 ^ 31) :
    MeasuresElapsed conv p ↔ p.elapsed < 60000 ∧ ¬ LosesMillisecond p.elapsed := by
  unfold MeasuresElapsed
  constructor
  · intro hmeasures
    have hlt := (elapsedMsec_spec conv h.ticsPerSec (by omega) (h.elapsed_eq_iff.mpr hwrap)).1
    rw [hmeasures] at hlt
    refine ⟨hlt, (keptMilliseconds_eq_iff _).mp ?_⟩
    rw [← h.elapsedMsec_eq conv hwrap hlt, hmeasures]
  · rintro ⟨hlt, hkept⟩
    rw [h.elapsedMsec_eq conv hwrap hlt, (keptMilliseconds_eq_iff _).mpr hkept]

theorem elapsed_le_run {events : List TimerEvent} {p q : Polling long}
    (hrun : Run (StepOf next) p events q) : p.elapsed ≤ q.elapsed := by
  have hstep : ∀ (m : Polling long) (event : TimerEvent) (n : Polling long),
      p.elapsed ≤ m.elapsed → StepOf next m event n → p.elapsed ≤ n.elapsed := by
    rintro m event _ hle ⟨⟩
    exact hle.trans (elapsed_le_step m event)
  exact hrun.invariant hstep (Nat.le_refl _)

/-- **`ElapsedMsec`.**  On a counter that has not started over it returns the time since `Set`
exactly if that is less than a minute and no millisecond is lost in `double`, and below a minute it
does not decrease. -/
theorem elapsed_msec_iff (conv : ULongLongConversion) (toInt : ℚ → Int32) (s : UInt32) (value : ℚ)
    (memory : Vtmr long) (hs : s.toNat < 2 ^ 31) (events : List TimerEvent) (p : Polling long)
    (hrun : Run (StepOf next) (armed toInt s value memory) events p)
    (hwrap : s.toNat + p.elapsed < 2 ^ 31) :
    (MeasuresElapsed conv p ↔ p.elapsed < 60000 ∧ ¬ LosesMillisecond p.elapsed) ∧
      ∀ events' q, Run (StepOf next) p events' q → s.toNat + q.elapsed < 2 ^ 31 →
        q.elapsed < 60000 →
          elapsedMsec conv p.statics p.timer ≤ elapsedMsec conv q.statics q.timer := by
  have hp : Started s.toNat p := Started.run hrun (armed_started toInt value memory hs)
  refine ⟨hp.measuresElapsed_iff conv hwrap, fun events' q hrest hwrap' hlt => ?_⟩
  have hq : Started s.toNat q := Started.run hrest hp
  have hle : p.elapsed ≤ q.elapsed := elapsed_le_run hrest
  rw [UInt32.le_iff_toNat_le, hp.elapsedMsec_eq conv hwrap (by omega),
    hq.elapsedMsec_eq conv hwrap' hlt]
  exact keptMilliseconds_mono hle

/-- So many ticks in a row. -/
theorem exists_run_ticks (n : ℕ) (p : Polling long) :
    ∃ q, Run (StepOf next) p (List.replicate n .tick) q ∧ q.elapsed = p.elapsed + n := by
  induction n generalizing p with
  | zero => exact ⟨p, .nil p, rfl⟩
  | succ n ih =>
      obtain ⟨q, hrun, helapsed⟩ := ih (p.step .tick)
      refine ⟨q, .cons rfl hrun, ?_⟩
      rw [helapsed]
      show p.elapsed + 1 + n = p.elapsed + (n + 1)
      omega

/-- A timer after three ticks. -/
theorem elapsed_msec_ticks :
    ∃ p, Run (StepOf next) (armed (fun _ => 5) 7 (1 / 200) (runningTimer .bits32))
        [.tick, .tick, .tick] p ∧
      MeasuresElapsed (.withDefault 0) p := by
  have hrun : Run (StepOf next) (armed (fun _ => 5) 7 (1 / 200) (runningTimer .bits32))
      [.tick, .tick, .tick] _ := run_iff_exec.mpr rfl
  exact ⟨_, hrun, (elapsed_msec_iff _ _ _ _ _ (by decide) _ _ hrun (by decide)).1.mpr (by decide)⟩

/-- A timer after a minute. -/
theorem not_elapsed_msec_minute :
    ∃ p, Run (StepOf next) (armed (fun _ => 5) 0 (1 / 200) (runningTimer .bits32))
        (List.replicate 60000 .tick) p ∧
      p.elapsed = 60000 ∧ ¬ MeasuresElapsed (.withDefault 0) p := by
  obtain ⟨p, hrun, helapsed⟩ := exists_run_ticks 60000
    (armed (fun _ => 5) 0 (1 / 200) (runningTimer .bits32))
  have hminute : p.elapsed = 60000 := helapsed
  have hwrap : (0 : UInt32).toNat + p.elapsed < 2 ^ 31 := by
    rw [hminute]
    decide
  refine ⟨p, hrun, hminute, fun hmeasures => ?_⟩
  have hlt := ((elapsed_msec_iff (.withDefault 0) _ _ _ _ (by decide) _ p hrun hwrap).1.mp
    hmeasures).1
  omega

end Polling

end XbeeAssignment.Timer
