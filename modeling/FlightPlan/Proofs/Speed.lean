import FlightPlan.Proofs.Binary64.Comparison
import FlightPlan.Proofs.Binary64.Hypotenuse
import FlightPlan.Proofs.Report

/-!
# `FlightPlan.Proofs.Speed`: legs that have a length

A leg whose length is not finite requires no speed, so it passes every check of speeds. Which
legs are these? A length is the root of two squares. The horizontal distance is at most half
way around the Earth and has a square that is small. The square of the climb overflows when
the altitudes are some `1e154` meters apart, and then the leg has no length
(`Sphere.isFinite_legDistance_iff`). So a valid report says of every other leg that its speed
was taken from its length (`Plan.length_of_valid`).

The theorems hold for all elementary functions that do what is documented of them
(`Elementary.Documented`). A haversine that rounding takes above one has no root, and then the
horizontal distance is not a number. Such legs are left out.
-/

set_option autoImplicit false

namespace FlightPlan

open Binary64

/-- What is documented of elementary functions: the root of a double is the nearest one, and a
direction is at most half a turn to either side. -/
structure Elementary.Documented [Elementary Float] : Prop where
  sqrt_eq (x : Float) : Elementary.sqrt x = Float.sqrt x
  atan2_range (y x : Float) : (Elementary.atan2 y x).isNaN = false →
    -Sphere.pi ≤ Elementary.atan2 y x ∧ Elementary.atan2 y x ≤ Sphere.pi

namespace Sphere

variable [Elementary Float] {a b : Position Float} {altA altB : Float}

/-- A horizontal distance is small. -/
theorem bounded_surfaceDistance (h : Elementary.Documented)
    (hnumber : (surfaceDistance a b).isNaN = false) : Bounded (-20) (surfaceDistance a b) := by
  have hpi : Bounded (-51) (Sphere.pi : Float) := by decide +kernel
  have hminus : Bounded (-51) (-Sphere.pi : Float) := hpi.neg (by decide) (by decide)
  have hdiameter : Bounded (-29) (2.0 * radius : Float) := by decide +kernel
  obtain ⟨hge, hle⟩ := h.atan2_range _ _ (isNaN_of_mul hnumber)
  exact hdiameter.mul (bounded_of_between hminus hpi hge hle) (by decide) (by decide) (by decide)

/-- A leg has a length exactly when the square of its climb is finite. -/
theorem isFinite_legDistance_iff (h : Elementary.Documented)
    (hnumber : (surfaceDistance a b).isNaN = false) :
    (legDistance a altA b altB).isFinite = true ↔ (square (altB - altA)).isFinite = true := by
  rw [legDistance, h.sqrt_eq]
  exact isFinite_hypotenuse_iff ((bounded_surfaceDistance h hnumber).mono (by decide))

end Sphere

/-- A leg without a length requires no speed. -/
theorem Speed.ofLength_of_not_isFinite {length duration : Float} (h : length.isFinite = false) :
    ofLength length duration = 0.0 := by
  have hlength : Scalar.isFinite length = false := h
  simp [ofLength, hlength]

namespace Plan

section
variable [Elementary Float] {limits : Limits Float} {waypoints : List (Waypoint Float)}
  {plan : Plan Float} {origin goal : Target Float}

/-- A leg of a plan with a valid report has a length, and a speed from it that is not above
the ceiling, unless its climb is too great to be squared. Such a leg requires no speed. -/
theorem length_of_valid (h : Elementary.Documented)
    (hplan : ofWaypoints limits waypoints = .ok plan)
    (htimes : ∀ w ∈ waypoints, w.target.time.isFinite = true)
    (hvalid : plan.report.valid = true) (hleg : Legs.IsLeg waypoints origin goal)
    (hnumber : (Sphere.surfaceDistance origin.position goal.position).isNaN = false) :
    ((Speed.length origin goal).isFinite = true ↔
        (Sphere.square (goal.altitude - origin.altitude)).isFinite = true)
      ∧ ((Speed.length origin goal).isFinite = true →
        ¬ limits.ceiling < Speed.ofLength (Speed.length origin goal) (goal.time - origin.time))
      ∧ ((Speed.length origin goal).isFinite = false → Speed.required origin goal = 0.0) := by
  have hslow := ((valid_report_iff hplan).mp hvalid).2 origin goal hleg
  -- A start time that is finite is taken as it is.
  have hstart : Speed.startTime origin = origin.time := by
    obtain ⟨i, horigin, -⟩ := hleg
    obtain ⟨w, hw, rfl⟩ := List.mem_map.mp (List.mem_of_getElem? horigin)
    exact if_pos (htimes w hw)
  refine ⟨Sphere.isFinite_legDistance_iff h hnumber, fun _ => ?_, fun hlength => ?_⟩
  · rwa [Speed.required, hstart] at hslow
  · exact Speed.ofLength_of_not_isFinite hlength

end

end Plan

/-- The elementary functions as they are at the angle zero. A leg straight up from the place at
latitude and longitude zero needs no others. -/
@[reducible]
def Elementary.atZero : Elementary Float where
  sqrt := Float.sqrt
  sin _ := 0.0
  cos _ := 1.0
  asin _ := 0.0
  atan2 _ _ := 0.0

namespace Plan

/-- The climb of twenty meters in ten seconds. -/
def climb : List (Waypoint Float) :=
  [Legs.waypointOf 1 0.0 0.0 100.0 0.0, Legs.waypointOf 2 0.0 0.0 120.0 10.0]

/-- A climb of twenty meters in ten seconds is measured. -/
theorem length_of_valid_climb :
    letI : Elementary Float := .atZero
    ∃ plan origin goal, Elementary.Documented ∧ ofWaypoints Limits.standard climb = .ok plan
      ∧ (∀ w ∈ climb, w.target.time.isFinite = true) ∧ plan.report.valid = true
      ∧ Legs.IsLeg climb origin goal
      ∧ (Sphere.surfaceDistance origin.position goal.position).isNaN = false
      ∧ (Speed.length origin goal).isFinite = true
      ∧ ¬ (30.0 : Float)
          < Speed.ofLength (Speed.length origin goal) (goal.time - origin.time) := by
  let _ : Elementary Float := .atZero
  have hzero : -Sphere.pi ≤ (0.0 : Float) ∧ (0.0 : Float) ≤ Sphere.pi := by decide +kernel
  have hdocumented : Elementary.Documented := ⟨fun _ => rfl, fun _ _ _ => hzero⟩
  have hplan : ofWaypoints Limits.standard climb
      = .ok ⟨0, Limits.standard, Legs.recompute Limits.standard climb⟩ :=
    ofWaypoints_eq_ok_iff.mpr ⟨⟨by decide +kernel, by decide +kernel⟩, rfl⟩
  have htimes : ∀ w ∈ climb, w.target.time.isFinite = true := by decide +kernel
  have hvalid : (Report.ofSequence Limits.standard
      (Legs.recompute Limits.standard climb)).valid = true := by decide +kernel
  have hleg : Legs.IsLeg climb (Legs.waypointOf 1 0.0 0.0 100.0 0.0).target
      (Legs.waypointOf 2 0.0 0.0 120.0 10.0).target := ⟨0, rfl, rfl⟩
  have hnumber :
      (Sphere.surfaceDistance (⟨0.0, 0.0⟩ : Position Float) ⟨0.0, 0.0⟩).isNaN = false := by
    decide +kernel
  have hspeed := length_of_valid hdocumented hplan htimes hvalid hleg hnumber
  have hlength := hspeed.1.mpr (by decide +kernel)
  exact ⟨_, _, _, hdocumented, hplan, htimes, hvalid, hleg, hnumber, hlength, hspeed.2.1 hlength⟩

/-- Two waypoints of which the second is further above the first than can be squared. -/
def tower : List (Waypoint Float) :=
  [Legs.waypointOf 1 0.0 0.0 0.0 0.0, Legs.waypointOf 2 0.0 0.0 1e200 10.0]

/-- The report on the tower is valid, and its leg has no length. -/
theorem valid_without_length :
    ∃ plan, ofWaypoints Limits.standard tower = .ok plan
      ∧ (∀ w ∈ tower, w.target.time.isFinite = true)
      ∧ (Limits.standard : Limits Float).isValid = true ∧ plan.report.valid = true
      ∧ ∃ origin goal, Legs.IsLeg tower origin goal
        ∧ (Speed.length origin goal).isFinite = false := by
  have hplan : ofWaypoints Limits.standard tower
      = .ok ⟨0, Limits.standard, Legs.recompute Limits.standard tower⟩ :=
    ofWaypoints_eq_ok_iff.mpr ⟨⟨by decide +kernel, by decide +kernel⟩, rfl⟩
  have hlength : (Speed.length (Legs.waypointOf 1 0.0 0.0 0.0 0.0).target
      (Legs.waypointOf 2 0.0 0.0 1e200 10.0).target).isFinite = false := by
    -- The sine and the cosine in the horizontal distance cannot be computed here. A root is not
    -- finite when what it is taken of is not, and one overflow is enough for that.
    rw [← Bool.not_eq_true]
    intro hfinite
    have hsquare : (Sphere.square ((1e200 : Float) - 0.0)).isFinite = true :=
      (isFinite_of_add (isFinite_of_sqrt hfinite)).2
    have hoverflow : (Sphere.square ((1e200 : Float) - 0.0)).isFinite = false := by decide +kernel
    rw [hoverflow] at hsquare
    exact nomatch hsquare
  have honly {origin goal : Target Float} (hleg : Legs.IsLeg tower origin goal) :
      origin = (Legs.waypointOf 1 0.0 0.0 0.0 0.0).target
        ∧ goal = (Legs.waypointOf 2 0.0 0.0 1e200 10.0).target := by
    obtain ⟨i, horigin, hgoal⟩ := hleg
    match i with
    | 0 => exact ⟨(Option.some.inj horigin).symm, (Option.some.inj hgoal).symm⟩
  refine ⟨_, hplan, by decide +kernel, by decide +kernel, (valid_report_iff hplan).mpr ⟨?_, ?_⟩,
    _, _, ⟨0, rfl, rfl⟩, hlength⟩
  · intro origin goal hleg
    obtain ⟨rfl, rfl⟩ := honly hleg
    decide +kernel
  · intro origin goal hleg
    obtain ⟨rfl, rfl⟩ := honly hleg
    rw [Speed.required, Speed.ofLength_of_not_isFinite hlength]
    decide +kernel

end Plan

end FlightPlan
