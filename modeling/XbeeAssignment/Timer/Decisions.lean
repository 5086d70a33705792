import XbeeAssignment.Lib.Transition
import XbeeAssignment.Timer.Clock

/-!
# The decisions of the main loop

A pass of `TimerMainLoop` decides twice: whether the clock has jumped, by `dif`,
and whether a tick is due, by `sign`.  Both are `int`s, cut off from the 64 bits
the clock has for seconds, and the decisions are those of the exact numbers in
every pass exactly if every pass meets `Representable` (`decides_exactly_iff`).

* A jump by a multiple of 2³² hundredths of a second, 497 days, or up to two
  seconds more is taken for none.
* A target that is behind by more than 2³¹ milliseconds, 24 days and not counting
  whole periods of 49 days, is taken for one that lies ahead.

A target that does lie ahead is never mistaken.  While jumps are recognised the
target is in the second of the last reading, or at most two milliseconds past the
end of it (`Near`): the clock cannot go back beyond its second unnoticed.
-/

namespace XbeeAssignment.Timer

open Transition

/-! ## The exact numbers -/

/-- `dif` before it is assigned to an `int`. -/
def exactDif (prv now : Timeval) : ℤ :=
  (now.sec - prv.sec) * 100 + (now.usec - prv.usec).tdiv 10000

/-- `sign` before it is assigned to an `int`. -/
def exactSign (absTimer now : Timeval) : ℤ :=
  (absTimer.sec - now.sec) * 1000 + (absTimer.usec - now.usec).tdiv 1000

theorem dif_eq (prv now : Timeval) : dif prv now = asInt (exactDif prv now) := rfl

theorem sign_eq (absTimer now : Timeval) : sign absTimer now = asInt (exactSign absTimer now) :=
  rfl

/-- The clock has jumped. -/
def ExactJump (prv now : Timeval) : Prop :=
  exactDif prv now < 0 ∨ jmpTreshold < exactDif prv now

/-- A reading of the clock. -/
abbrev Reading := { t : Timeval // t.Normalised }

namespace Clock

def next (c : Clock) (reading : Reading) : Option Clock :=
  some (c.pass reading)

/-- The pass sets the target to the reading exactly if the clock has jumped, and counts a tick
exactly if the target does not lie ahead then. -/
structure DecidesExactly (c : Clock) (reading : Reading) : Prop where
  jump : TimeJump c.now reading ↔ ExactJump c.now reading
  tick : sign (c.target reading) reading ≤ 0 ↔ exactSign (c.target reading) reading ≤ 0

/-- The time since the last reading, in hundredths of a second, is not 0 to 200 more than a
multiple of 2³² other than 0; and unless it is a jump, the target is not behind by more than 2³¹
milliseconds, not counting multiples of 2³². -/
structure Representable (c : Clock) (reading : Reading) : Prop where
  dif : exactDif c.now reading % 2 ^ 32 ≤ jmpTreshold → ¬ ExactJump c.now reading
  lag : ¬ ExactJump c.now reading → exactSign c.absTimer reading ≤ 0 →
    -exactSign c.absTimer reading % 2 ^ 32 ≤ 2 ^ 31

/-! ## Assignment to an `int` -/

theorem asInt_nonpos_iff (n : ℤ) : asInt n ≤ 0 ↔ -n % 2 ^ 32 ≤ 2 ^ 31 := by
  unfold asInt
  rw [Int.bmod_eq_emod]
  split <;> omega

/-- The range of no jump keeps its values only. -/
theorem not_timeJump_iff (prv now : Timeval) :
    ¬ TimeJump prv now ↔ exactDif prv now % 2 ^ 32 ≤ jmpTreshold := by
  unfold TimeJump jmpTreshold
  rw [dif_eq]
  unfold asInt
  rw [Int.bmod_eq_emod]
  split <;> omega

/-- No jump is seen where there is none. -/
theorem exactJump_of_timeJump {prv now : Timeval} (hjump : TimeJump prv now) :
    ExactJump prv now := by
  by_contra hno
  refine (not_timeJump_iff prv now).mpr ?_ hjump
  unfold ExactJump at hno
  unfold jmpTreshold at hno ⊢
  omega

/-! ## The target -/

/-- The target is not further ahead than two milliseconds past the second of the reading. -/
structure Near (c : Clock) : Prop where
  now : c.now.Normalised
  absTimer : c.absTimer.Normalised
  lt : c.absTimer.micros < (c.now.sec + 1) * 1000000 + 2000

theorem start_near {first : Timeval} (hnormalised : first.Normalised) : (start first).Near := by
  have hlt := hnormalised.lt
  refine { now := hnormalised, absTimer := hnormalised, lt := ?_ }
  show first.sec * 1000000 + first.usec < (first.sec + 1) * 1000000 + 2000
  omega

/-- However the microseconds were rounded, `sign` is less than a millisecond off. -/
theorem exactSign_bounds (absTimer now : Timeval) :
    1000 * exactSign absTimer now < absTimer.micros - now.micros + 1000 ∧
      absTimer.micros - now.micros < 1000 * exactSign absTimer now + 1000 := by
  have hdiv := tdiv_bounds (absTimer.usec - now.usec) (k := 1000) (by omega)
  unfold exactSign Timeval.micros
  omega

/-- A target that does not lie ahead is less than a millisecond after the reading. -/
theorem micros_lt_of_exactSign {absTimer now : Timeval} (hsign : exactSign absTimer now ≤ 0) :
    absTimer.micros < now.micros + 1000 := by
  have hhigh := (exactSign_bounds absTimer now).2
  omega

variable {c : Clock} {reading : Reading}

/-- Without a jump the clock does not go back to an earlier second. -/
theorem sec_le_of_not_exactJump (hnow : c.now.Normalised) (hjump : ¬ ExactJump c.now reading) :
    c.now.sec ≤ reading.val.sec := by
  have hdiv := tdiv_bounds (reading.val.usec - c.now.usec) (k := 10000) (by omega)
  have hlow := hnow.nonneg
  have hhigh := reading.property.lt
  unfold ExactJump exactDif at hjump
  omega

/-- A target that lies ahead is close. -/
theorem Near.exactSign_lt (h : c.Near) (hjump : ¬ ExactJump c.now reading) :
    exactSign c.absTimer reading < 2 ^ 31 := by
  have hsec := sec_le_of_not_exactJump h.now hjump
  have hlt := h.lt
  have hlow := (exactSign_bounds c.absTimer reading).1
  have hnonneg := reading.property.nonneg
  have hreading : reading.val.micros = reading.val.sec * 1000000 + reading.val.usec := rfl
  omega

/-- A target that has been set to the reading does not lie ahead. -/
theorem target_of_jump (hjump : TimeJump c.now reading) :
    sign (c.target reading) reading ≤ 0 ∧ exactSign (c.target reading) reading ≤ 0 := by
  have htarget : c.target reading = reading := if_pos hjump
  have hzero : exactSign reading reading = 0 := by
    unfold exactSign
    simp
  rw [htarget, sign_eq, hzero]
  exact ⟨by decide, le_refl 0⟩

/-- Near its target, the loop decides exactly if and only if the numbers are representable. -/
theorem Near.decidesExactly_iff (h : c.Near) :
    DecidesExactly c reading ↔ Representable c reading := by
  constructor
  · intro hdecides
    refine { dif := fun hrange hexact => ?_, lag := fun hno hsign => ?_ }
    · exact (not_timeJump_iff _ _).mpr hrange (hdecides.jump.mpr hexact)
    · have hjump : ¬ TimeJump c.now reading := fun hjump => hno (hdecides.jump.mp hjump)
      have htick := hdecides.tick
      rw [target, if_neg hjump, sign_eq, asInt_nonpos_iff] at htick
      exact htick.mpr hsign
  · intro hrep
    have hjumps : TimeJump c.now reading ↔ ExactJump c.now reading := by
      refine ⟨exactJump_of_timeJump, fun hexact => ?_⟩
      by_contra hjump
      exact hrep.dif ((not_timeJump_iff _ _).mp hjump) hexact
    refine { jump := hjumps, tick := ?_ }
    by_cases hjump : TimeJump c.now reading
    · exact iff_of_true (target_of_jump hjump).1 (target_of_jump hjump).2
    · have hno : ¬ ExactJump c.now reading := fun hexact => hjump (hjumps.mpr hexact)
      have hlt := h.exactSign_lt hno
      have hlag := hrep.lag hno
      rw [target, if_neg hjump, sign_eq, asInt_nonpos_iff]
      constructor
      · intro hnonpos
        by_contra hahead
        omega
      · exact hlag

/-- A pass that decides exactly stays near. -/
theorem Near.pass (h : c.Near) (hrep : Representable c reading) : (c.pass reading).Near := by
  have hdecides := h.decidesExactly_iff.mpr hrep
  by_cases hjump : TimeJump c.now reading
  · have htarget : c.target reading = reading := if_pos hjump
    have hlt := reading.property.lt
    unfold Clock.pass
    rw [if_pos (target_of_jump hjump).1, htarget]
    refine { now := reading.property, absTimer := normalised_advance reading.property, lt := ?_ }
    rw [micros_advance]
    show reading.val.micros + 1000 < (reading.val.sec + 1) * 1000000 + 2000
    unfold Timeval.micros
    omega
  have hno : ¬ ExactJump c.now reading := fun hexact => hjump (hdecides.jump.mpr hexact)
  have hsec := sec_le_of_not_exactJump h.now hno
  rcases pass_cases hjump with ⟨hsign, hpass⟩ | ⟨-, hpass⟩
  · have htick := hdecides.tick
    rw [target, if_neg hjump] at htick
    have hclose := micros_lt_of_exactSign (htick.mp hsign)
    have hlt := reading.property.lt
    rw [hpass]
    refine { now := reading.property, absTimer := normalised_advance h.absTimer, lt := ?_ }
    rw [micros_advance]
    show c.absTimer.micros + 1000 < (reading.val.sec + 1) * 1000000 + 2000
    unfold Timeval.micros at hclose ⊢
    omega
  · have hlt := h.lt
    rw [hpass]
    refine { now := reading.property, absTimer := h.absTimer, lt := ?_ }
    show c.absTimer.micros < (reading.val.sec + 1) * 1000000 + 2000
    omega

/-- **The decisions.**  In a run over any readings of the clock every pass decides as the exact
numbers have it if and only if they are representable in every pass. -/
theorem decides_exactly_iff (first : Reading) (readings : List Reading) :
    EveryStep (StepOf next) (fun c reading _ => DecidesExactly c reading) (start first) readings ↔
      EveryStep (StepOf next) (fun c reading _ => Representable c reading) (start first)
        readings := by
  apply everyStep_iff_of_invariant Near
  · rintro c reading _ hnear hrep ⟨⟩
    exact hnear.pass hrep
  · rintro c reading _ hnear -
    exact hnear.decidesExactly_iff
  · exact start_near first.property

/-- The clock is set forward by 2³² hundredths of a second, 497 days: no jump is seen. -/
theorem not_decides_exactly_jump :
    ¬ EveryStep (StepOf next) (fun c reading _ => DecidesExactly c reading)
        (start ⟨0, 0⟩) [⟨⟨42949672, 960000⟩, by decide, by decide⟩] := by
  intro hevery
  have hrep := (decides_exactly_iff ⟨⟨0, 0⟩, by decide, by decide⟩ _).mp hevery [] [] _ _ _ rfl
    (.nil _) rfl
  exact hrep.dif (by decide) (.inr (by decide))

end Clock

end XbeeAssignment.Timer
