import FlightPlan.Proofs.Plan.Sound
import FlightPlan.Proofs.Report.Listing

/-!
# `FlightPlan.Proofs.Report`: what a report without issues says

Three checks walk over a sequence, each in its own way: times in pairs of neighbours,
speeds from each waypoint to the leg it reports, clearances one waypoint at a time.
`FlightPlan.Proofs.Report.Listing` says what each of them finds. Here it is read off when
they find nothing, as a statement about the legs and the waypoints (`IsLeg`):

* `timeIssues_eq_nil_iff`: along every leg the time grows;
* `speedIssues_eq_nil_iff`: no leg requires more than the ceiling. Each leg is looked at
  from its origin, and the last one from its goal too (`exists_reports_iff`);
* `issues_ofTerrain_eq_nil_iff`: above all known ground there is enough clearance.

Only targets are looked at, so the computed legs of a sequence change nothing, and the report
on a plan can be told from the waypoints it was made of (`Plan.valid_report_iff`).
-/

set_option autoImplicit false

namespace FlightPlan

namespace Legs

section
variable {α : Type}

/-- The sequence has a leg from one target to another. -/
def IsLeg (waypoints : List (Waypoint α)) (origin goal : Target α) : Prop :=
  ∃ i, (waypoints.map Waypoint.target)[i]? = some origin
    ∧ (waypoints.map Waypoint.target)[i + 1]? = some goal

/-- A leg is between two waypoints that follow each other. -/
theorem isLeg_iff {waypoints : List (Waypoint α)} {origin goal : Target α} :
    IsLeg waypoints origin goal ↔
      ∃ (i : Nat) (v w : Waypoint α), waypoints[i]? = some v ∧ waypoints[i + 1]? = some w
        ∧ v.target = origin ∧ w.target = goal := by
  simp only [IsLeg, List.getElem?_map, Option.map_eq_some_iff]
  constructor
  · rintro ⟨i, ⟨v, hv, horigin⟩, w, hw, hgoal⟩
    exact ⟨i, v, w, hv, hw, horigin, hgoal⟩
  · rintro ⟨i, v, w, hv, hw, horigin, hgoal⟩
    exact ⟨i, ⟨v, hv, horigin⟩, w, hw, hgoal⟩

/-- Between a waypoint and the next there is a leg. -/
theorem isLeg_of_getElem? {waypoints : List (Waypoint α)} {i : Nat} {v w : Waypoint α}
    (hv : waypoints[i]? = some v) (hw : waypoints[i + 1]? = some w) :
    IsLeg waypoints v.target w.target :=
  isLeg_iff.mpr ⟨i, v, w, hv, hw, rfl, rfl⟩

/-- The legs that waypoints report are those of the sequence. -/
theorem exists_reports_iff {waypoints : List (Waypoint α)} {origin goal : Target α} :
    (∃ i, Reports waypoints i origin goal) ↔ IsLeg waypoints origin goal := by
  constructor
  · rintro ⟨i, hreports⟩
    cases hreports with
    | leaving hv hw => exact isLeg_of_getElem? hv hw
    | arriving hv hw hlast => exact isLeg_of_getElem? hv hw
  · intro hleg
    obtain ⟨i, v, w, hv, hw, rfl, rfl⟩ := isLeg_iff.mp hleg
    exact ⟨i, .leaving hv hw⟩

end

variable {α : Type} [Scalar α] [Geodesy α] {limits : Limits α} {waypoints : List (Waypoint α)}

/-- Computing legs leaves every leg between the targets it was between. -/
theorem isLeg_recompute {origin goal : Target α} :
    IsLeg (recompute limits waypoints) origin goal ↔ IsLeg waypoints origin goal := by
  rw [IsLeg, IsLeg, map_target_recompute]

/-- Computing legs leaves all targets as they were. -/
theorem forall_target_recompute {P : Target α → Prop} :
    (∀ w ∈ recompute limits waypoints, P w.target) ↔ ∀ w ∈ waypoints, P w.target := by
  rw [← List.forall_mem_map (P := P), map_target_recompute, List.forall_mem_map]

end Legs

open Legs (IsLeg)

namespace Report

section
variable {α : Type}

/-- A report merged from two is valid when neither of them lists an issue. -/
theorem valid_merge_ofIssues_iff (first second : List (Issue α)) :
    ((ofIssues first).merge (ofIssues second)).valid = true ↔
      (ofIssues first).valid = true ∧ (ofIssues second).valid = true := by
  show (first ++ second).isEmpty = true ↔ first.isEmpty = true ∧ second.isEmpty = true
  rw [List.isEmpty_iff, List.isEmpty_iff, List.isEmpty_iff, List.append_eq_nil_iff]

end

variable {α : Type} [Scalar α]

/-- There is no issue with times when along every leg the time grows. -/
theorem timeIssues_eq_nil_iff {waypoints : List (Waypoint α)} :
    timeIssues waypoints = [] ↔
      ∀ origin goal, IsLeg waypoints origin goal → origin.time < goal.time := by
  rw [(lists_timeIssues waypoints).eq_nil_iff]
  constructor
  · intro h origin goal hleg
    obtain ⟨i, v, w, hv, hw, rfl, rfl⟩ := Legs.isLeg_iff.mp hleg
    by_contra hlate
    exact h _ ⟨i, v, w, hv, hw, hlate, rfl⟩
  · rintro h issue ⟨i, v, w, hv, hw, hlate, -⟩
    exact hlate (h _ _ (Legs.isLeg_of_getElem? hv hw))

/-- There is no issue with clearance when every waypoint that can be flown to has enough
above the ground, where the ground is known. -/
theorem issues_ofTerrain_eq_nil_iff {limits : Limits α} {terrain : Terrain α}
    {waypoints : List (Waypoint α)} :
    (ofTerrain limits terrain waypoints).issues = [] ↔
      ∀ w ∈ waypoints, w.target.isPlaced = true → ∀ ground,
        terrain w.target.position = some ground →
          ¬ w.target.clearance ground < limits.clearance := by
  rw [(lists_clearanceIssues limits terrain waypoints).eq_nil_iff]
  constructor
  · intro h w hw hplaced ground hground hlow
    obtain ⟨i, hi⟩ := List.getElem?_of_mem hw
    exact h _ ⟨i, w, hi, hplaced, ground, hground, hlow, rfl⟩
  · rintro h issue ⟨i, w, hi, hplaced, ground, hground, hlow, -⟩
    exact h w (List.mem_of_getElem? hi) hplaced ground hground hlow

variable [Geodesy α]

/-- There is no issue with speeds when no leg requires more than the ceiling. -/
theorem speedIssues_eq_nil_iff {limits : Limits α} {waypoints : List (Waypoint α)} :
    speedIssues limits waypoints = [] ↔
      ∀ origin goal, IsLeg waypoints origin goal →
        ¬ limits.ceiling < Speed.required origin goal := by
  rw [(lists_speedIssues limits waypoints).eq_nil_iff]
  constructor
  · intro h origin goal hleg hfast
    obtain ⟨i, hreports⟩ := Legs.exists_reports_iff.mpr hleg
    obtain ⟨w, hw⟩ := hreports.exists_getElem?
    exact h _ ⟨i, w, origin, goal, hw, hreports, hfast, rfl⟩
  · rintro h issue ⟨i, w, origin, goal, -, hreports, hfast, -⟩
    exact h origin goal (Legs.exists_reports_iff.mp ⟨i, hreports⟩) hfast

/-- A sequence has a valid report when times grow and no leg is above the ceiling. -/
theorem valid_ofSequence_iff {limits : Limits α} {waypoints : List (Waypoint α)} :
    (ofSequence limits waypoints).valid = true ↔
      (∀ origin goal, IsLeg waypoints origin goal → origin.time < goal.time)
        ∧ ∀ origin goal, IsLeg waypoints origin goal →
          ¬ limits.ceiling < Speed.required origin goal := by
  rw [← timeIssues_eq_nil_iff, ← speedIssues_eq_nil_iff, ofSequence, ofIssues,
    List.isEmpty_iff, List.append_eq_nil_iff]

end Report

/-- A plan has a valid report when times grow along the legs of the waypoints it was made of,
and none of these legs is above the ceiling. -/
theorem Plan.valid_report_iff {α : Type} [Scalar α] [Geodesy α] {limits : Limits α}
    {waypoints : List (Waypoint α)} {plan : Plan α}
    (h : ofWaypoints limits waypoints = .ok plan) :
    plan.report.valid = true ↔
      (∀ origin goal, IsLeg waypoints origin goal → origin.time < goal.time)
        ∧ ∀ origin goal, IsLeg waypoints origin goal →
          ¬ limits.ceiling < Speed.required origin goal := by
  obtain ⟨-, rfl⟩ := ofWaypoints_eq_ok_iff.mp h
  refine Report.valid_ofSequence_iff.trans ?_
  simp only [Legs.isLeg_recompute]

end FlightPlan
