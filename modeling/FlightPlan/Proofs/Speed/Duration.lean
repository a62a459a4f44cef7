import FlightPlan.Proofs.Binary64.Hypotenuse
import FlightPlan.Proofs.Binary64.Whole
import FlightPlan.Proofs.Legs.Refresh
import FlightPlan.Proofs.Tier
import FlightPlan.Speed

/-!
# `FlightPlan.Proofs.Speed.Duration`: more time never asks for more speed

The speed of a leg is its length over the time allotted to it, rounded to a tenth. The length is a
root, and the time is positive where it is used, so the speed is a number that is not negative
(`Speed.ofLength_nonneg`). With more time it can only get less (`Speed.ofLength_antitone`), also
where the time is too great to be told, and the speed falls to zero.

Between a start and a later time there is always some time to fly, however close the two are
(`Binary64.zero_lt_sub`), and a still later time allows no less (`Binary64.sub_le_sub_of_le`). So a
waypoint that is put off is reached at no greater speed, and the tier of the leg is no higher
(`Speed.shown_antitone`).
-/

set_option autoImplicit false

namespace FlightPlan

open Binary64

namespace Binary64

open Float.Model (UnpackedFloat)
open Float.Model.UnpackedFloat

variable {a x : Float}

/-- What unpacks to something not negative is at least zero. -/
theorem nonneg_of_nonNegative (h : NonNegative a.toModel.unpack) : (0.0 : Float) ≤ a := by
  generalize hu : a.toModel.unpack = u at h
  by_cases hfinite : a.isFinite = true
  · rw [nonneg_iff_value hfinite, value, hu]
    cases h with
    | zero s => exact le_rfl
    | @finite m e hm =>
        rw [exact_finite_positive]
        exact (mul_twoPow_pos hm e).le
    | infinity => exact le_rfl
  · have hnot : ¬ a.toModel.unpack.isFinite = true := hfinite
    rw [hu] at hnot
    cases h with
    | zero s => exact absurd rfl hnot
    | finite => exact absurd rfl hnot
    | infinity => exact le_of_infinite (by decide) hu

/-- A root that is a finite number is not negative. -/
theorem sqrt_nonneg (h : (Float.sqrt x).isFinite = true) : (0.0 : Float) ≤ Float.sqrt x := by
  refine nonneg_of_nonNegative (nonNegative_unpack_pack ?_)
  have hroot : (UnpackedFloat.sqrt .binary64 x.toModel.unpack).isFinite = true :=
    isFinite_of_pack h
  revert hroot
  rcases x.toModel.unpack with (_ | _) | _ | s | ⟨_ | _, m, e, hm⟩
  · intro h
    contradiction
  · intro h
    contradiction
  · intro h
    contradiction
  · exact fun _ => .zero s
  · intro h
    contradiction
  · exact fun _ => nonNegative_roundWithAccuracy _ _ _

end Binary64

namespace Speed

variable {distance duration longer : Float}

/-! ### The speed for a length and a time -/

/-- There is something to compute, and nothing stands in the way. -/
def Measured (distance duration : Float) : Prop :=
  distance.isFinite = true ∧ duration.isFinite = true ∧ (0.0 : Float) < duration

/-- Where there is something to compute, the speed is length over time, to one decimal. -/
theorem ofLength_of_measured (h : Measured distance duration) :
    ofLength distance duration = Scalar.roundTenth (distance / duration) := by
  have hdistance : Scalar.isFinite distance = true := h.1
  have hduration : Scalar.isFinite duration = true := h.2.1
  rw [ofLength, hduration, hdistance, if_neg (by decide),
    if_neg (LawfulComparison.not_le_of_lt h.2.2), if_neg (by decide)]

/-- In every other case no speed is required. -/
theorem ofLength_of_not_measured (h : ¬ Measured distance duration) :
    ofLength distance duration = 0.0 := by
  rw [ofLength]
  split
  · rfl
  rename_i hduration
  have hfinite : duration.isFinite = true := by
    rwa [Bool.not_eq_true', Bool.not_eq_false] at hduration
  split
  · rfl
  rename_i hpositive
  have hzero : (0.0 : Float) < duration := by
    rw [le_iff_value hfinite (by decide), value_zero] at hpositive
    exact (pos_iff_value hfinite).mpr (not_le.mp hpositive)
  split
  · rfl
  rename_i hdistance
  rw [Bool.not_eq_true', Bool.not_eq_false] at hdistance
  exact absurd ⟨hdistance, hfinite, hzero⟩ h

/-- Rounding comes after the division and before the tenths. -/
theorem Measured.isRounded_div (h : Measured distance duration)
    (hnonneg : (0.0 : Float) ≤ distance) :
    IsRounded (value distance / value duration) (distance / duration) := by
  obtain ⟨hdistance, hduration, hpositive⟩ := h
  exact Binary64.isRounded_div hdistance hduration ((nonneg_iff_value hdistance).mp hnonneg)
    ((pos_iff_value hduration).mp hpositive)

/-- Required speeds are numbers that are not negative. -/
theorem ofLength_nonneg (hdistance : distance.isFinite = true → (0.0 : Float) ≤ distance)
    (duration : Float) : (0.0 : Float) ≤ ofLength distance duration := by
  by_cases h : Measured distance duration
  · rw [ofLength_of_measured h]
    exact roundTenth_nonneg (h.isRounded_div (hdistance h.1)).nonneg
  · rw [ofLength_of_not_measured h]
    decide

/-- In more time a length requires no more speed. -/
theorem ofLength_antitone (hdistance : distance.isFinite = true → (0.0 : Float) ≤ distance)
    (hpositive : (0.0 : Float) < duration) (hle : duration ≤ longer) :
    ofLength distance longer ≤ ofLength distance duration := by
  -- Where the longer time shows no speed, any speed for the shorter one is as great.
  by_cases h : Measured distance longer
  swap
  · rw [ofLength_of_not_measured h]
    exact ofLength_nonneg hdistance duration
  -- Then the shorter time is finite as well.
  have hduration : duration.isFinite = true :=
    isFinite_iff_bounded.mpr (bounded_of_between (by decide) (isFinite_iff_bounded.mp h.2.1)
      (LawfulComparison.le_of_lt hpositive) hle)
  have h' : Measured distance duration := ⟨h.1, hduration, hpositive⟩
  have hnonneg := hdistance h.1
  rw [ofLength_of_measured h, ofLength_of_measured h']
  refine roundTenth_mono (h.isRounded_div hnonneg).nonneg
    ((h.isRounded_div hnonneg).mono (h'.isRounded_div hnonneg) ?_)
  exact div_le_div_of_nonneg_left ((nonneg_iff_value h.1).mp hnonneg)
    ((pos_iff_value hduration).mp hpositive) ((le_iff_value hduration h.2.1).mp hle)

/-! ### The speed of a leg -/

variable {origin goal : Target Float}

/-- Every leg starts at a finite time. -/
theorem isFinite_startTime (origin : Target Float) : (startTime origin).isFinite = true := by
  rw [startTime]
  split
  · rename_i hfinite
    exact hfinite
  · decide

/-- The length of a leg is a root. -/
theorem length_nonneg (h : (length origin goal).isFinite = true) :
    (0.0 : Float) ≤ length origin goal :=
  sqrt_nonneg h

/-- The speed shown for a leg: to the goal, or to the position at which the goal is being
placed. -/
def shown {α : Type} [Scalar α] [Geodesy α] (origin goal : Target α) :
    Option (Position α) → α
  | none => required origin goal
  | some position => preview origin goal position

/-- It is the speed required to the goal at one position or the other. -/
theorem shown_eq {α : Type} [Scalar α] [Geodesy α] (origin goal : Target α)
    (place : Option (Position α)) :
    shown origin goal place
      = required origin { goal with position := place.getD goal.position } := by
  cases place <;> rfl

/-- No leg requires a negative speed. -/
theorem required_nonneg (origin goal : Target Float) : (0.0 : Float) ≤ required origin goal :=
  ofLength_nonneg length_nonneg _

/-- A goal that is reached later requires no greater speed. -/
theorem required_antitone (origin goal : Target Float) {time later : Float}
    (htime : time.isFinite = true) (hlater : later.isFinite = true)
    (hstart : startTime origin < time) (hle : time ≤ later) :
    required origin { goal with time := later } ≤ required origin { goal with time := time } := by
  have hfinite := isFinite_startTime origin
  show ofLength (length origin goal) (later - startTime origin)
    ≤ ofLength (length origin goal) (time - startTime origin)
  exact ofLength_antitone length_nonneg (zero_lt_sub hfinite htime hstart)
    (sub_le_sub_of_le hfinite htime hlater hstart hle)

/-- The speed shown for a leg is a number that is not negative, whatever the waypoints and the
position are. Among the times after the start of the leg, a later one shows no greater speed, and
so no higher tier under any limits. -/
theorem shown_antitone (origin goal : Target Float) (place : Option (Position Float)) :
    (shown origin goal place).isNaN = false ∧ (0.0 : Float) ≤ shown origin goal place
      ∧ ∀ time later : Float, time.isFinite = true → later.isFinite = true →
        startTime origin < time → time ≤ later →
        shown origin { goal with time := later } place
            ≤ shown origin { goal with time := time } place
          ∧ ∀ limits : Limits Float,
            limits.tier (shown origin { goal with time := later } place)
              ≤ limits.tier (shown origin { goal with time := time } place) := by
  have hnonneg : (0.0 : Float) ≤ shown origin goal place := by
    rw [shown_eq]
    exact required_nonneg origin _
  refine ⟨(LawfulComparison.numbers_of_le hnonneg).2, hnonneg, ?_⟩
  intro time later htime hlater hstart hle
  have hspeed : shown origin { goal with time := later } place
      ≤ shown origin { goal with time := time } place := by
    rw [shown_eq, shown_eq]
    exact required_antitone origin { goal with position := place.getD goal.position } htime hlater
      hstart hle
  exact ⟨hspeed, fun limits => limits.tier_mono hspeed⟩

/-- To reach the second waypoint of the corner in twenty seconds takes no more speed than in ten,
also at another position. -/
theorem shown_antitone_corner :
    let origin := (Legs.waypointOf 1 35.0 51.0 100.0 0.0).target
    let goal := (Legs.waypointOf 2 35.0009 51.0 100.0 10.0).target
    startTime origin < 10.0
      ∧ shown origin { goal with time := 20.0 } (some ⟨35.0, 51.0011⟩)
          ≤ shown origin { goal with time := 10.0 } (some ⟨35.0, 51.0011⟩)
      ∧ ∀ limits : Limits Float,
        limits.tier (shown origin { goal with time := 20.0 } (some ⟨35.0, 51.0011⟩))
          ≤ limits.tier (shown origin { goal with time := 10.0 } (some ⟨35.0, 51.0011⟩)) := by
  have hstart : startTime (Legs.waypointOf 1 35.0 51.0 100.0 0.0).target < 10.0 := by
    decide +kernel
  have hgoal := (shown_antitone (Legs.waypointOf 1 35.0 51.0 100.0 0.0).target
    (Legs.waypointOf 2 35.0009 51.0 100.0 10.0).target (some ⟨35.0, 51.0011⟩)).2.2
  exact ⟨hstart, hgoal 10.0 20.0 (by decide) (by decide) hstart (by decide)⟩

end Speed

end FlightPlan
