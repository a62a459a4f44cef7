import FlightPlan.Proofs.Report

/-!
# `FlightPlan.Proofs.Report.Clearance`: the report on the ground below

The check of clearance passes over waypoints: over those that cannot be flown to, and over those
above ground that is not known. It passes over no other one. Every waypoint of a plan can be flown
to, which its edits keep true (`Sound.placed`), so of a plan only unknown ground is passed over
(`lists_clearanceIssues_of_reached`).

`lists_ofTerrain` states both, and how the report is merged into the one on times and speeds.
-/

set_option autoImplicit false

namespace FlightPlan

namespace Report

variable {α : Type} [Scalar α] [Geodesy α]

/-- Every waypoint of a plan that edits lead to can be flown to, so the check of clearance passes
over none of them. -/
theorem lists_clearanceIssues_of_reached (limits : Limits α) (terrain : Terrain α) {n : Nat}
    {plan : Plan α} (h : Plan.Reached n plan) :
    Lists (ofTerrain limits terrain plan.waypoints).issues fun issue =>
      ∃ i w, plan.waypoints[i]? = some w ∧ IsTooLow limits terrain i w issue := by
  refine (lists_clearanceIssues limits terrain plan.waypoints).congr fun issue => ?_
  constructor
  · rintro ⟨i, w, hw, -, hlow⟩
    exact ⟨i, w, hw, hlow⟩
  · rintro ⟨i, w, hw, hlow⟩
    exact ⟨i, w, hw, h.isSound.placed w (List.mem_of_getElem? hw), hlow⟩

/-- The report on clearance lists the waypoints at a valid position and a finite altitude that
have less than the least clearance above ground that is known. All waypoints of a plan that edits
lead to are such, and none of them is passed over. Merged into a report on times and speeds, its
issues come last, and the whole is valid when both reports are. -/
theorem lists_ofTerrain (limits : Limits α) (terrain : Terrain α) :
    (∀ waypoints : List (Waypoint α),
        Lists (ofTerrain limits terrain waypoints).issues fun issue =>
          ∃ i w, waypoints[i]? = some w ∧ w.target.position.isValid = true
            ∧ Scalar.isFinite w.target.altitude = true ∧ IsTooLow limits terrain i w issue)
      ∧ (∀ (n : Nat) (plan : Plan α), Plan.Reached n plan →
          (∀ w ∈ plan.waypoints,
              w.target.position.isValid = true ∧ Scalar.isFinite w.target.altitude = true)
            ∧ Lists (ofTerrain limits terrain plan.waypoints).issues fun issue =>
                ∃ i w, plan.waypoints[i]? = some w ∧ IsTooLow limits terrain i w issue)
      ∧ ∀ (speeds : Limits α) (sequence waypoints : List (Waypoint α)),
          let report := ofSequence speeds sequence
          let ground := ofTerrain limits terrain waypoints
          (report.merge ground).issues = report.issues ++ ground.issues
            ∧ ((report.merge ground).valid = true ↔
                report.valid = true ∧ ground.valid = true) := by
  refine ⟨?_, ?_, ?_⟩
  · intro waypoints
    refine (lists_clearanceIssues limits terrain waypoints).congr fun issue => ?_
    simp only [Target.isPlaced, Bool.and_eq_true, and_assoc]
  · intro n plan h
    refine ⟨?_, lists_clearanceIssues_of_reached limits terrain h⟩
    intro w hw
    exact (Bool.and_eq_true _ _).mp (h.isSound.placed w hw)
  · intro speeds sequence waypoints
    exact ⟨rfl, valid_merge_ofIssues_iff _ _⟩

/-- Above ground at 97 meters the start of the corner is reported with its clearance of three. The
end is twenty meters higher, and nothing is said of it. -/
theorem lists_ofTerrain_corner :
    ∃ plan, Plan.Reached 0 plan ∧ plan.waypoints.length = 3
      ∧ (⟨0, Legs.idOf 1, "", .groundClearance 100.0 97.0 3.0 5.0⟩ : Issue Float)
          ∈ (ofTerrain Limits.standard (Terrain.flat 97.0) plan.waypoints).issues
      ∧ ∀ issue ∈ (ofTerrain Limits.standard (Terrain.flat 97.0) plan.waypoints).issues,
          issue.index ≠ 2 := by
  have hreached := Plan.Reached.start (.ofWaypoints Plan.ofWaypoints_corner)
  have hlists := ((lists_ofTerrain (Limits.standard : Limits Float)
    (Terrain.flat 97.0)).2.1 0 _ hreached).2
  have hclearance : (100.0 : Float) - 97.0 = 3.0 := by decide
  refine ⟨_, hreached, rfl, ?_, ?_⟩
  · rw [← hclearance]
    exact (hlists.mem_iff _).mpr ⟨0, _, rfl, 97.0, rfl, by decide, rfl⟩
  · intro issue hissue hindex
    obtain ⟨i, w, hw, ground, hground, hlow, rfl⟩ := (hlists.mem_iff issue).mp hissue
    obtain rfl : i = 2 := hindex
    obtain rfl := Option.some.inj hw
    obtain rfl : 97.0 = ground := Option.some.inj hground
    exact absurd hlow (by decide)

end Report

end FlightPlan
