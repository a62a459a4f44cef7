import FlightPlan.Proofs.Binary64.Remainder
import FlightPlan.Proofs.Plan.Sound

/-!
# `FlightPlan.Proofs.Heading.Normal`: every heading is at least zero and below a whole turn

`IsNormal` says this of a heading, and that it is finite. `Heading.normalize` brings every double
into this range (`isNormal_normalize`) and leaves what is in range as it is, down to the sign of a
zero (`normalize_of_isNormal`). The range is open at the upper end, and this is where rounding
reaches it: a tiny negative angle plus a whole turn rounds to the whole turn, and so does an angle
just below it, to tenths or to whole degrees. Each time the result is brought back to north.

Headings are made in few places, and none of them skips this step: the course of a leg
(`isNormal_toward`), a manual heading, and the three digits of a text (`text_eq_digits`). So all
headings and courses of a sequence are normal after a full computation (`isNormal_leg`), and in a
plan that edits lead to. A normal course is not changed when it becomes a manual heading, so
pinning the tail of a computed sequence changes its heading mode alone (`pinTail_recompute`).
-/

set_option autoImplicit false

namespace FlightPlan

open Binary64

namespace Heading

variable {degrees : Float}

/-- The heading is finite, at least zero, and below a whole turn. -/
structure IsNormal (degrees : Float) : Prop where
  isFinite : degrees.isFinite = true
  nonneg : (0.0 : Float) ≤ degrees
  lt_turn : degrees < 360.0

/-- North is a normal heading. -/
theorem isNormal_zero : IsNormal 0.0 :=
  ⟨by decide, by decide, by decide⟩

/-! ### The remainder by a whole turn -/

/-- The significand and exponent of a whole turn. -/
theorem parts_turn : parts 360.0 = ⟨6333186975989760, -44⟩ := by
  decide +kernel

/-- They stand for 360. -/
theorem value_parts_turn : (parts 360.0).value = 360 := by
  rw [parts_turn, Parts.value]
  norm_num

/-- A whole turn is 360 degrees. -/
theorem value_turn : value 360.0 = 360 := by
  have hsign : isNegative 360.0 = false := by decide +kernel
  rw [value_eq_parts (by decide), hsign, if_neg (by decide), value_parts_turn]

/-- What is left of a heading without whole turns is finite and more than minus one turn. -/
theorem remainder_turn (hdegrees : degrees.isFinite = true) :
    (remainder degrees 360.0).isFinite = true ∧ -360 < value (remainder degrees 360.0) := by
  have hzero : ¬ ((360.0 : Float) == 0.0) = true := by decide
  have hpositive : 0 < (parts 360.0).significand := by rw [parts_turn]; decide
  have hplace : (parts 360.0).exponent ≤ 0 := by rw [parts_turn]; decide
  have hlt := abs_value_remainder_lt hdegrees (by decide) hzero hpositive hplace
  rw [value_parts_turn] at hlt
  exact ⟨(value_remainder hdegrees (by decide) hzero hpositive hplace).1, (abs_lt.mp hlt).1⟩

/-- A normal heading has no whole turn to lose. -/
theorem remainder_turn_of_isNormal (h : IsNormal degrees) : remainder degrees 360.0 = degrees := by
  have hnonneg := (nonneg_iff_value h.isFinite).mp h.nonneg
  have hlt := (lt_iff_value h.isFinite (by decide)).mp h.lt_turn
  refine remainder_eq_self h.isFinite (by decide) (by decide) (by rw [parts_turn]; decide)
    (by rw [parts_turn]; decide) ?_
  rwa [value_parts_turn, abs_of_nonneg hnonneg, ← value_turn]

/-! ### Normalizing -/

/-- Adding a whole turn to a negative remainder does not leave it negative. -/
theorem emod_turn_nonneg (hdegrees : degrees.isFinite = true) :
    (0.0 : Float) ≤ Scalar.emod degrees 360.0 := by
  obtain ⟨hremainder, hlow⟩ := remainder_turn hdegrees
  simp only [Scalar.emod]
  split
  · refine (isRounded_add hremainder (by decide) ?_).nonneg
    rw [value_turn]
    linarith
  · rename_i hnegative
    exact LawfulComparison.le_of_not_lt LawfulComparison.isNaN_zero
      (isNaN_of_isFinite hremainder) hnegative

/-- Normalizing gives north, or the remainder itself where that is below a whole turn. -/
theorem normalize_eq_zero_or (degrees : Float) :
    normalize degrees = 0.0
      ∨ degrees.isFinite = true ∧ normalize degrees = Scalar.emod degrees 360.0
        ∧ ¬ 360.0 ≤ Scalar.emod degrees 360.0 := by
  simp only [normalize]
  split
  · exact .inl rfl
  rename_i hfinite
  rw [Bool.not_eq_true', Bool.not_eq_false] at hfinite
  split
  · exact .inl rfl
  · rename_i hbelow
    exact .inr ⟨hfinite, rfl, hbelow⟩

/-- Every double becomes a normal heading. -/
theorem isNormal_normalize (degrees : Float) : IsNormal (normalize degrees) := by
  rcases normalize_eq_zero_or degrees with hzero | ⟨hfinite, hturned, hbelow⟩
  · rw [hzero]
    exact isNormal_zero
  -- That the sum is below a whole turn does not follow from the remainder, since rounding may
  -- reach the turn. Only the last check tells.
  have hnonneg := emod_turn_nonneg hfinite
  have hnumber := (LawfulComparison.numbers_of_le hnonneg).2
  have hle : Scalar.emod degrees 360.0 ≤ 360.0 :=
    (LawfulComparison.le_total (by decide) hnumber).resolve_left hbelow
  refine ⟨isFinite_normalize degrees, ?_, ?_⟩
  · rwa [hturned]
  · rw [hturned]
    exact LawfulComparison.lt_iff.mpr ⟨hle, hbelow⟩

/-- A normal heading is left as it is. -/
theorem normalize_of_isNormal (h : IsNormal degrees) : normalize degrees = degrees := by
  have hfinite : Scalar.isFinite degrees = true := h.isFinite
  have hremainder : Scalar.rem degrees 360.0 = degrees := remainder_turn_of_isNormal h
  have hpositive : ¬ degrees < 0.0 := fun hneg => LawfulComparison.not_le_of_lt hneg h.nonneg
  have hemod : Scalar.emod degrees 360.0 = degrees := by
    simp only [Scalar.emod, hremainder]
    exact if_neg hpositive
  simp only [normalize, hfinite, hemod]
  rw [if_neg (by decide), if_neg (LawfulComparison.not_le_of_lt h.lt_turn)]

/-- A normalized heading is normalized already. -/
theorem normalize_normalize (degrees : Float) :
    normalize (normalize degrees) = normalize degrees :=
  normalize_of_isNormal (isNormal_normalize degrees)

/-- The heading from one position to another is normal, whatever the bearing is. -/
theorem isNormal_toward [Geodesy Float] (a b : Position Float) : IsNormal (toward a b) := by
  simp only [toward]
  split
  · exact isNormal_zero
  · exact isNormal_normalize _

/-- The text of an angle is three digits of a number below `360`, and a degree sign. -/
theorem text_eq_digits {α : Type} [Scalar α] (degrees : α) :
    ∃ i j k : Nat, i < 10 ∧ j < 10 ∧ k < 10 ∧ 100 * i + 10 * j + k < 360
      ∧ text degrees
        = String.ofList [Nat.digitChar i, Nat.digitChar j, Nat.digitChar k, '°'] := by
  have hwhole : Scalar.toIndex (Scalar.round (normalize degrees)) % 360 < 360 :=
    Nat.mod_lt _ (by decide)
  rw [text]
  generalize Scalar.toIndex (Scalar.round (normalize degrees)) % 360 = whole at hwhole ⊢
  exact ⟨whole / 100, whole / 10 % 10, whole % 10, by omega, by omega, by omega, by omega, rfl⟩

/-- A heading is shown as the normalized one is. -/
theorem text_normalize (degrees : Float) : text (normalize degrees) = text degrees := by
  rw [text, text, normalize_normalize]

end Heading

open Heading

/-- A heading is normal whether it follows the leg or is set by hand. -/
theorem HeadingMode.isNormal_effective (mode : HeadingMode Float) {course : Float}
    (hcourse : IsNormal course) : IsNormal (mode.effective course) := by
  cases mode with
  | auto => exact hcourse
  | manual degrees => exact isNormal_normalize degrees

/-- The waypoint pointing another way. -/
def Waypoint.facing {α : Type} (mode : HeadingMode α) (w : Waypoint α) : Waypoint α :=
  { w with target := { w.target with headingMode := mode } }

section
variable [Geodesy Float] {limits : Limits Float} {waypoints : List (Waypoint Float)}

/-- The headings of a leg. -/
theorem Placed.isNormal_leg (limits : Limits Float) (p : Placed Float) :
    IsNormal (p.leg limits).heading ∧ IsNormal (p.leg limits).course := by
  have hcourse : IsNormal (p.leg limits).course := by
    show IsNormal (p.course?.getD 0.0)
    rw [Placed.course?]
    cases p.ends with
    | none => exact isNormal_zero
    | some ends => exact isNormal_toward _ _
  exact ⟨p.here.target.headingMode.isNormal_effective hcourse, hcourse⟩

namespace Legs

/-- Computed legs have normal headings and courses. -/
theorem isNormal_recompute (limits : Limits Float) (waypoints : List (Waypoint Float)) :
    ∀ w ∈ recompute limits waypoints, IsNormal w.leg.heading ∧ IsNormal w.leg.course := by
  intro w hw
  obtain ⟨p, -, rfl⟩ := List.mem_map.mp hw
  exact p.isNormal_leg limits

omit [Geodesy Float] in
/-- Pinned along a normal course, a waypoint that points there already keeps its heading. -/
theorem pinned_of_isNormal {w : Waypoint Float} (hcourse : IsNormal w.leg.course)
    (hheading : w.leg.heading = w.target.headingMode.effective w.leg.course) :
    pinned w = if w.target.headingMode.isAuto then w.facing (.manual w.leg.course) else w := by
  rw [pinned]
  cases hmode : w.target.headingMode with
  | auto =>
      rw [hmode] at hheading
      have hkept : normalize w.leg.course = w.leg.heading :=
        (normalize_of_isNormal hcourse).trans hheading.symm
      show (⟨_, { w.leg with heading := normalize w.leg.course }⟩ : Waypoint Float) = w.facing _
      rw [hkept]
      rfl
  | manual degrees => rfl

/-- Pinning the tail of a computed sequence changes the heading mode of its last waypoint, and
nothing else: of the legs there, no heading moves. -/
theorem pinTail_recompute (limits : Limits Float) (waypoints : List (Waypoint Float)) (i : Nat) :
    (pinTail (recompute limits waypoints))[i]?
      = (recompute limits waypoints)[i]?.map fun w =>
          if 2 ≤ waypoints.length ∧ i + 1 = waypoints.length ∧ w.target.headingMode.isAuto then
            w.facing (.manual w.leg.course)
          else w := by
  rcases Nat.lt_or_ge waypoints.length 2 with hshort | hlong
  · have hnot : ¬ 2 ≤ waypoints.length := Nat.not_le.mpr hshort
    rw [pinTail, if_pos (by rwa [length_recompute])]
    simp [hnot]
  · rw [getElem?_pinTail (by rwa [length_recompute]), length_recompute]
    cases hw : (recompute limits waypoints)[i]? with
    | none => rfl
    | some w =>
        obtain ⟨p, -, rfl⟩ := List.mem_map.mp (List.mem_of_getElem? hw)
        have hpinned := pinned_of_isNormal (w := p.computed limits) (p.isNormal_leg limits).2 rfl
        rw [Option.map_some, Option.map_some, hpinned]
        by_cases hlast : i + 1 = waypoints.length
        · rw [if_pos hlast]
          by_cases hauto : (p.computed limits).target.headingMode.isAuto = true
          · rw [if_pos hauto, if_pos ⟨hlong, hlast, hauto⟩]
          · rw [if_neg hauto, if_neg fun h => hauto h.2.2]
        · rw [if_neg hlast, if_neg fun h => hlast h.2.1]

end Legs

/-- Every double is normalized to a heading that is finite, at least zero and below a whole turn,
and normalizing again changes nothing. The heading from one position to another is such a heading,
whatever the positions are. The text of an angle is three digits of a number below `360` and a
degree sign, the same before and after normalizing. So all headings and courses are normal in a
computed sequence, and in every plan that edits lead to. Pinning the tail of a computed sequence
changes nothing but the heading mode of the last waypoint. -/
theorem headings_are_normal :
    (∀ degrees : Float, IsNormal (normalize degrees)
        ∧ normalize (normalize degrees) = normalize degrees)
      ∧ (∀ a b : Position Float, IsNormal (toward a b) ∧ normalize (toward a b) = toward a b)
      ∧ (∀ degrees : Float,
        (∃ i j k : Nat, i < 10 ∧ j < 10 ∧ k < 10 ∧ 100 * i + 10 * j + k < 360
            ∧ text degrees
              = String.ofList [Nat.digitChar i, Nat.digitChar j, Nat.digitChar k, '°'])
          ∧ text degrees = text (normalize degrees))
      ∧ (∀ (limits : Limits Float) (waypoints : List (Waypoint Float)),
        ∀ w ∈ Legs.recompute limits waypoints, IsNormal w.leg.heading ∧ IsNormal w.leg.course)
      ∧ (∀ (n : Nat) (plan : Plan Float), Plan.Reached n plan →
        ∀ w ∈ plan.waypoints, IsNormal w.leg.heading ∧ IsNormal w.leg.course)
      ∧ ∀ (limits : Limits Float) (waypoints : List (Waypoint Float)) (i : Nat),
        (Legs.pinTail (Legs.recompute limits waypoints))[i]?
          = (Legs.recompute limits waypoints)[i]?.map fun w =>
              if 2 ≤ waypoints.length ∧ i + 1 = waypoints.length ∧ w.target.headingMode.isAuto then
                w.facing (.manual w.leg.course)
              else w := by
  refine ⟨fun degrees => ⟨isNormal_normalize degrees, normalize_normalize degrees⟩,
    fun a b => ⟨isNormal_toward a b, normalize_of_isNormal (isNormal_toward a b)⟩,
    fun degrees => ⟨text_eq_digits degrees, (text_normalize degrees).symm⟩,
    Legs.isNormal_recompute, ?_, Legs.pinTail_recompute⟩
  intro n plan hplan w hw
  -- The legs of a plan are those that a full computation gives, so the edits need no case each.
  have hcurrent := hplan.isSound.current
  rw [← hcurrent] at hw
  exact Legs.isNormal_recompute plan.limits plan.waypoints w hw

end

/-- The end of the corner has a normal heading, which it keeps when it is pinned. -/
theorem headings_are_normal_corner :
    ∃ plan w, Plan.ofWaypoints Limits.standard Legs.corner = .ok plan ∧ Plan.Reached 0 plan
      ∧ plan.waypoints[2]? = some w ∧ IsNormal w.leg.heading ∧ IsNormal w.leg.course
      ∧ (Legs.pinTail plan.waypoints)[2]? = some (w.facing (.manual w.leg.course)) := by
  have hreached := Plan.Reached.start (.ofWaypoints Plan.ofWaypoints_corner)
  obtain ⟨-, -, -, -, hplan, hpinned⟩ := headings_are_normal
  obtain ⟨w, hw⟩ : ∃ w, (Legs.recompute Limits.standard Legs.corner)[2]? = some w := ⟨_, rfl⟩
  obtain ⟨hheading, hcourse⟩ := hplan 0 _ hreached w (List.mem_of_getElem? hw)
  refine ⟨_, w, Plan.ofWaypoints_corner, hreached, hw, hheading, hcourse, ?_⟩
  have hauto : w.target.headingMode.isAuto = true := by
    obtain rfl := Option.some.inj hw
    rfl
  have htail := hpinned Limits.standard Legs.corner 2
  rwa [hw, Option.map_some, if_pos ⟨by decide, by decide, hauto⟩] at htail

end FlightPlan
