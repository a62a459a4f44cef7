import FlightPlan.Proofs.Report.Listing
import FlightPlan.Proofs.Speed

/-!
# `FlightPlan.Proofs.Report.Sequence`: the report on times and speeds

The report on a sequence is the listing of its issues with times, followed by that of its issues
with speeds. The check of times only compares neighbours. When it finds nothing, every waypoint is
earlier than all that come after it, not the next one only (`pairwise_time`), and then no time can
be something that is not a number (`isNaN_time_of_pairwise`). `lists_ofSequence` puts these
together.
-/

set_option autoImplicit false

namespace FlightPlan

open Legs (IsLeg)
open Scalar (isNaN)

namespace Report

variable {α : Type} [Scalar α]

/-- When the time grows along every leg, it grows between any two waypoints in their order. The
induction is on how many are between them. -/
theorem time_lt_of_legs [LawfulComparison α] {waypoints : List (Waypoint α)}
    (hlegs : ∀ origin goal, IsLeg waypoints origin goal → origin.time < goal.time) (between : Nat)
    {i : Nat} {v w : Waypoint α} (hv : waypoints[i]? = some v)
    (hw : waypoints[i + between + 1]? = some w) : v.target.time < w.target.time := by
  induction between generalizing w with
  | zero => exact hlegs _ _ (Legs.isLeg_of_getElem? hv hw)
  | succ between ih =>
      have hlength := (List.getElem?_eq_some_iff.mp hw).1
      have hu : waypoints[i + between + 1]? = some waypoints[i + between + 1] :=
        List.getElem?_eq_getElem (by omega)
      have hstep : waypoints[i + between + 1].target.time < w.target.time :=
        hlegs _ _ (Legs.isLeg_of_getElem? hu hw)
      -- One more leg is flown after the waypoint that the induction has reached.
      exact LawfulComparison.lt_of_lt_of_le (ih hu) (LawfulComparison.le_of_lt hstep)

/-- Without an issue with times, each waypoint is earlier than all that come after it. -/
theorem pairwise_time [LawfulComparison α] {waypoints : List (Waypoint α)}
    (h : timeIssues waypoints = []) :
    waypoints.Pairwise fun v w => v.target.time < w.target.time := by
  rw [List.pairwise_iff_getElem]
  intro i j hi hj hij
  have hw : waypoints[i + (j - i - 1) + 1]? = some waypoints[j] := by
    rw [show i + (j - i - 1) + 1 = j by omega]
    exact List.getElem?_eq_getElem hj
  exact time_lt_of_legs (timeIssues_eq_nil_iff.mp h) (j - i - 1) (List.getElem?_eq_getElem hi) hw

/-- Times that ascend are numbers, where there are two or more. -/
theorem isNaN_time_of_pairwise [LawfulComparison α] {waypoints : List (Waypoint α)}
    (h : waypoints.Pairwise fun v w => v.target.time < w.target.time)
    (hlong : 2 ≤ waypoints.length) {w : Waypoint α} (hw : w ∈ waypoints) :
    isNaN w.target.time = false := by
  obtain ⟨i, hi, rfl⟩ := List.getElem_of_mem hw
  rw [List.pairwise_iff_getElem] at h
  by_cases hfirst : i = 0
  · subst hfirst
    exact (LawfulComparison.numbers_of_lt (h 0 1 hi (by omega) (by omega))).1
  · exact (LawfulComparison.numbers_of_lt (h 0 i (by omega) hi (by omega))).2

variable [Geodesy α]

/-- The report on a sequence lists the waypoints that are not later than the one before them, among
them all with a time on either side that is not a number, and then the waypoints that report a leg
above the ceiling. It is valid when it lists nothing, and then, among two waypoints or more, every
time is a number and earlier than all times after it. -/
theorem lists_ofSequence [LawfulComparison α] (limits : Limits α)
    (waypoints : List (Waypoint α)) :
    (ofSequence limits waypoints).issues = timeIssues waypoints ++ speedIssues limits waypoints
      ∧ Lists (timeIssues waypoints) (IsOutOfOrder waypoints)
      ∧ (∀ i v w, waypoints[i]? = some v → waypoints[i + 1]? = some w →
          isNaN v.target.time = true ∨ isNaN w.target.time = true →
            ∃ issue ∈ timeIssues waypoints, issue.index = i + 1)
      ∧ Lists (speedIssues limits waypoints) (IsTooFast limits waypoints)
      ∧ ((ofSequence limits waypoints).valid = true ↔ (ofSequence limits waypoints).issues = [])
      ∧ ((ofSequence limits waypoints).valid = true → 2 ≤ waypoints.length →
          (∀ w ∈ waypoints, isNaN w.target.time = false)
            ∧ waypoints.Pairwise fun v w => v.target.time < w.target.time) := by
  have htimes := lists_timeIssues waypoints
  have hvalid : (ofSequence limits waypoints).valid = true ↔
      (ofSequence limits waypoints).issues = [] := List.isEmpty_iff
  refine ⟨rfl, htimes, ?_, lists_speedIssues limits waypoints, hvalid, ?_⟩
  · intro i v w hv hw hnan
    -- What is not a number is not compared away: it is below nothing, and nothing is below it.
    have hnot : ¬ v.target.time < w.target.time := by
      intro hlt
      obtain ⟨hvnumber, hwnumber⟩ := LawfulComparison.numbers_of_lt hlt
      rcases hnan with hnan | hnan
      · rw [hvnumber] at hnan
        exact nomatch hnan
      · rw [hwnumber] at hnan
        exact nomatch hnan
    exact ⟨_, (htimes.mem_iff _).mpr ⟨i, v, w, hv, hw, hnot, rfl⟩, rfl⟩
  · intro hok hlong
    have hnone : timeIssues waypoints = [] := (List.append_eq_nil_iff.mp (hvalid.mp hok)).1
    have hpairwise := pairwise_time hnone
    exact ⟨fun w hw => isNaN_time_of_pairwise hpairwise hlong hw, hpairwise⟩

/-- A climb of which the first time was lost. -/
def lostClimb : List (Waypoint Float) :=
  [Legs.waypointOf 1 0.0 0.0 100.0 (0.0 / 0.0), Legs.waypointOf 2 0.0 0.0 120.0 10.0]

/-- The climb is in the order of its times. Without the first of them it is reported. -/
theorem lists_ofSequence_climb :
    letI : Elementary Float := .atZero
    (ofSequence Limits.standard Plan.climb).valid = true
      ∧ 2 ≤ Plan.climb.length
      ∧ (Plan.climb.Pairwise fun v w => v.target.time < w.target.time)
      ∧ (lostClimb.map fun w => isNaN w.target.time) = [true, false]
      ∧ ∃ issue ∈ (ofSequence Limits.standard lostClimb).issues, issue.index = 1 := by
  let _ : Elementary Float := .atZero
  have hvalid : (ofSequence Limits.standard Plan.climb).valid = true := by decide +kernel
  have hlong : 2 ≤ Plan.climb.length := by decide
  obtain ⟨-, -, -, -, -, horder⟩ := lists_ofSequence Limits.standard Plan.climb
  obtain ⟨hissues, -, hlost, -⟩ := lists_ofSequence Limits.standard lostClimb
  have hnan : isNaN (0.0 / 0.0 : Float) = true := by decide
  obtain ⟨issue, hissue, hindex⟩ := hlost 0 _ _ rfl rfl (Or.inl hnan)
  refine ⟨hvalid, hlong, (horder hvalid hlong).2, by decide, issue, ?_, hindex⟩
  rw [hissues]
  exact List.mem_append_left _ hissue

end Report

end FlightPlan
