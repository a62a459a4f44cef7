import FlightPlan.Proofs.Binary64.Comparison
import FlightPlan.Proofs.Plan.Sound
import FlightPlan.Proofs.Report.Listing
import FlightPlan.Proofs.Tier
import FlightPlan.Summary

/-!
# `FlightPlan.Proofs.Plan.Speeds`: stored speeds, reported speeds, counted speeds

The speed of a leg appears in three places. The waypoint stores it, the report
computes it again to find legs above the ceiling, and the summary computes it
again to count tiers and to find the greatest. The waypoint and the report look
at a leg from each waypoint, so that the last leg comes twice: the last two
waypoints both have it. The summary looks at each leg once.

In a current sequence of two waypoints or more the three agree:

* `speed_of_leg` and `speed_of_last_leg` say which leg a stored speed belongs to;
* `mem_speedIssues_iff` finds the reported speeds among the stored ones;
* `legSpeeds_eq` finds the speeds of the summary in the waypoints but the last.

`Reached.speeds_agree` states what this means for a plan, with what valid
thresholds add: a reported waypoint is infeasible, its leg is counted as
impossible, and there is a report exactly when the greatest speed is above the
ceiling. The counts are carried by `TierCounts.get_foldl_add`, the greatest speed
by `LawfulComparison.lt_foldl_fmax_iff`.
-/

set_option autoImplicit false

namespace FlightPlan

/-! ### Counting tiers -/

namespace TierCounts

/-- One more leg is counted in its own tier and in no other. -/
theorem get_add (counts : TierCounts) (added tier : Tier) :
    (counts.add added).get tier = counts.get tier + if added = tier then 1 else 0 := by
  cases added <;> cases tier <;> rfl

/-- Adding tiers one by one counts each. -/
theorem get_foldl_add (counts : TierCounts) (tiers : List Tier) (tier : Tier) :
    (tiers.foldl add counts).get tier = counts.get tier + tiers.count tier := by
  induction tiers generalizing counts with
  | nil => rfl
  | cons first rest ih =>
      rw [List.foldl_cons, ih, get_add, List.count_cons]
      simp only [beq_iff_eq]
      omega

end TierCounts

/-! ### Issues about speed -/

section
variable {α : Type}

/-- The finding is about a speed. -/
def Finding.isSpeedLimit : Finding α → Bool
  | .speedLimit _ _ => true
  | _ => false

/-- The issues of a report that are about speeds. -/
def Report.speedLimits (report : Report α) : List (Issue α) :=
  report.issues.filter (·.finding.isSpeedLimit)

end

variable {α : Type} [Scalar α] [Geodesy α] {limits : Limits α} {waypoints : List (Waypoint α)}

namespace Report

/-- The issues about speeds are those that the check of speeds finds. -/
theorem speedLimits_ofSequence (limits : Limits α) (waypoints : List (Waypoint α)) :
    (ofSequence limits waypoints).speedLimits = speedIssues limits waypoints := by
  -- The first half of the report has no issue of the kind, the second half no other.
  have htimes : (timeIssues waypoints).filter (·.finding.isSpeedLimit) = [] := by
    rw [List.filter_eq_nil_iff]
    intro issue hissue
    obtain ⟨_, _, _, -, -, -, rfl⟩ := ((lists_timeIssues waypoints).mem_iff issue).mp hissue
    exact Bool.false_ne_true
  have hspeeds : (speedIssues limits waypoints).filter (·.finding.isSpeedLimit)
      = speedIssues limits waypoints := by
    rw [List.filter_eq_self]
    intro issue hissue
    obtain ⟨_, _, _, _, -, -, -, rfl⟩ :=
      ((lists_speedIssues limits waypoints).mem_iff issue).mp hissue
    rfl
  rw [speedLimits, ofSequence, ofIssues, List.filter_append, htimes, hspeeds, List.nil_append]

end Report

namespace Legs

/-! ### Stored speeds -/

/-- A current waypoint stores the speed of the leg that it reports. -/
theorem speed_of_reports (hcurrent : recompute limits waypoints = waypoints) {i : Nat}
    {w : Waypoint α} (hw : waypoints[i]? = some w) {origin goal : Target α}
    (h : Reports waypoints i origin goal) : w.leg.speed = Speed.required origin goal := by
  have hc : (recompute limits waypoints)[i]? = some w := by rw [hcurrent, hw]
  exact (leg_of_reports hc h).1

/-- A waypoint that another follows stores the speed to that one. -/
theorem speed_of_leg (hcurrent : recompute limits waypoints = waypoints) {i : Nat}
    {v w : Waypoint α} (hv : waypoints[i]? = some v) (hw : waypoints[i + 1]? = some w) :
    v.leg.speed = Speed.required v.target w.target :=
  speed_of_reports hcurrent hv (.leaving hv hw)

/-- The last waypoint stores the speed from the one before it. -/
theorem speed_of_last_leg (hcurrent : recompute limits waypoints = waypoints) {i : Nat}
    {v w : Waypoint α} (hv : waypoints[i]? = some v) (hw : waypoints[i + 1]? = some w)
    (hlast : waypoints.length = i + 2) :
    w.leg.speed = Speed.required v.target w.target :=
  speed_of_reports hcurrent hw (.arriving hv hw hlast)

/-- A property of speeds is met by a stored speed exactly when it is met by one that is not
the last. -/
theorem exists_mem_dropLast_iff (hcurrent : recompute limits waypoints = waypoints)
    (hlong : 2 ≤ waypoints.length) (P : α → Prop) :
    (∃ w ∈ waypoints, P w.leg.speed) ↔ ∃ w ∈ waypoints.dropLast, P w.leg.speed := by
  have hkept {j : Nat} {v : Waypoint α} (hj : j + 1 < waypoints.length)
      (hv : waypoints[j]? = some v) : v ∈ waypoints.dropLast := by
    refine List.mem_of_getElem? (i := j) ?_
    rwa [List.getElem?_dropLast, if_pos (by omega)]
  constructor
  · rintro ⟨w, hw, hspeed⟩
    obtain ⟨i, hi⟩ := List.getElem?_of_mem hw
    have hlength := (List.getElem?_eq_some_iff.mp hi).1
    by_cases hlast : i + 1 < waypoints.length
    · exact ⟨w, hkept hlast hi, hspeed⟩
    · -- The last waypoint has the speed of the one before it.
      obtain ⟨j, rfl⟩ : ∃ j, i = j + 1 := ⟨i - 1, by omega⟩
      have hj : waypoints[j]? = some waypoints[j] := List.getElem?_eq_getElem (by omega)
      refine ⟨_, hkept hlength hj, ?_⟩
      rw [speed_of_leg hcurrent hj hi, ← speed_of_last_leg hcurrent hj hi (by omega)]
      exact hspeed
  · rintro ⟨w, hw, hspeed⟩
    exact ⟨w, List.dropLast_subset waypoints hw, hspeed⟩

/-! ### Reported and counted speeds -/

/-- The report finds a speed above the ceiling wherever one is stored. -/
theorem mem_speedIssues_iff (hcurrent : recompute limits waypoints = waypoints)
    (hlong : 2 ≤ waypoints.length) {issue : Issue α} :
    issue ∈ Report.speedIssues limits waypoints ↔
      ∃ (i : Nat) (w : Waypoint α), waypoints[i]? = some w ∧ limits.ceiling < w.leg.speed
        ∧ issue = w.issue i (.speedLimit w.leg.speed limits.ceiling) := by
  rw [(Report.lists_speedIssues limits waypoints).mem_iff]
  constructor
  · rintro ⟨i, w, origin, goal, hw, hreports, hfast, rfl⟩
    rw [← speed_of_reports hcurrent hw hreports] at hfast ⊢
    exact ⟨i, w, hw, hfast, rfl⟩
  · rintro ⟨i, w, hw, hfast, rfl⟩
    obtain ⟨origin, goal, hreports⟩ :=
      exists_reports hlong (List.getElem?_eq_some_iff.mp hw).1
    rw [speed_of_reports hcurrent hw hreports] at hfast ⊢
    exact ⟨i, w, origin, goal, hw, hreports, hfast, rfl⟩

/-- The speeds of the legs, each computed once, are those stored by all but the last
waypoint. -/
theorem legSpeeds_eq (hcurrent : recompute limits waypoints = waypoints) :
    (((waypoints.map Waypoint.target).zip (waypoints.map Waypoint.target).tail).map
        fun (origin, goal) => Speed.required origin goal)
      = waypoints.dropLast.map (·.leg.speed) := by
  refine List.ext_getElem ?_ ?_
  · simp
  · intro i h₁ h₂
    have hi : i + 1 < waypoints.length := by
      simp only [List.length_map, List.length_dropLast] at h₂
      omega
    have hv : waypoints[i]? = some waypoints[i] := List.getElem?_eq_getElem (by omega)
    have hw : waypoints[i + 1]? = some waypoints[i + 1] := List.getElem?_eq_getElem hi
    simp only [List.getElem_map, List.getElem_zip, List.getElem_tail, List.getElem_dropLast]
    exact (speed_of_leg hcurrent hv hw).symm

end Legs

namespace Summary

/-- The summary counts the tiers of the stored speeds, but that of the last. -/
theorem get_tiers (hcurrent : Legs.recompute limits waypoints = waypoints) (tier : Tier) :
    (ofSequence limits waypoints).tiers.get tier
      = waypoints.dropLast.countP fun w => limits.tier w.leg.speed == tier := by
  simp only [ofSequence]
  rw [Legs.legSpeeds_eq hcurrent, TierCounts.get_foldl_add, List.map_map, List.count,
    List.countP_map]
  cases tier <;> exact Nat.zero_add _

/-- The greatest speed is above a bound when the first guess or a stored speed is. -/
theorem lt_maxSpeed_iff [LawfulComparison α]
    (hcurrent : Legs.recompute limits waypoints = waypoints) {bound : α} :
    bound < (ofSequence limits waypoints).maxSpeed ↔
      bound < 0.0 ∨ ∃ w ∈ waypoints.dropLast, bound < w.leg.speed := by
  simp only [ofSequence]
  rw [Legs.legSpeeds_eq hcurrent, LawfulComparison.lt_foldl_fmax_iff]
  simp only [List.mem_map, exists_exists_and_eq_and]

end Summary

namespace Plan

/-! ### Agreement -/

section
variable {plan : Plan α}

/-- The issues about speeds are the stored speeds above the ceiling. -/
theorem IsSound.mem_speedLimits_iff (h : plan.IsSound) (hlong : 2 ≤ plan.waypoints.length)
    (issue : Issue α) :
    issue ∈ plan.report.speedLimits ↔
      ∃ (i : Nat) (w : Waypoint α), plan.waypoints[i]? = some w
        ∧ plan.limits.ceiling < w.leg.speed
        ∧ issue = w.issue i (.speedLimit w.leg.speed plan.limits.ceiling) := by
  rw [report, Report.speedLimits_ofSequence]
  exact Legs.mem_speedIssues_iff h.current hlong

/-- An issue about speed, at whichever waypoint, means that a counted speed is above the
ceiling. -/
theorem IsSound.speedLimits_ne_nil_iff (h : plan.IsSound) (hlong : 2 ≤ plan.waypoints.length) :
    plan.report.speedLimits ≠ [] ↔
      ∃ w ∈ plan.waypoints.dropLast, plan.limits.ceiling < w.leg.speed := by
  rw [← Legs.exists_mem_dropLast_iff h.current hlong (plan.limits.ceiling < ·)]
  constructor
  · intro hne
    obtain ⟨issue, hissue⟩ := List.exists_mem_of_ne_nil _ hne
    obtain ⟨i, w, hw, hspeed, -⟩ := (h.mem_speedLimits_iff hlong issue).mp hissue
    exact ⟨w, List.mem_of_getElem? hw, hspeed⟩
  · rintro ⟨w, hw, hspeed⟩
    obtain ⟨i, hi⟩ := List.getElem?_of_mem hw
    exact List.ne_nil_of_mem ((h.mem_speedLimits_iff hlong _).mpr ⟨i, w, hi, hspeed, rfl⟩)

/-- A waypoint is feasible when its stored speed is. -/
theorem IsSound.feasible_eq (h : plan.IsSound) {w : Waypoint α} (hw : w ∈ plan.waypoints) :
    w.leg.feasible = (plan.limits.tier w.leg.speed == .feasible) := by
  obtain ⟨i, hi⟩ := List.getElem?_of_mem hw
  obtain ⟨p, hp, rfl⟩ := Legs.exists_placed hi
  rw [Legs.recompute_eq_self_iff.mp h.current p (List.mem_of_getElem? hp)]
  rfl

/-- In every plan of two waypoints or more that edits lead to, the issues about speeds are
the stored speeds above the ceiling, and the summary counts the stored speeds of all
waypoints but the last. Under valid limits a waypoint with such an issue is infeasible, such
an issue means an impossible leg, and there is one exactly when the greatest speed is above
the ceiling. -/
theorem Reached.speeds_agree [LawfulComparison α] {n : Nat} (h : Reached n plan)
    (hlong : 2 ≤ plan.waypoints.length) :
    (∀ issue, issue ∈ plan.report.speedLimits ↔
        ∃ (i : Nat) (w : Waypoint α), plan.waypoints[i]? = some w
          ∧ plan.limits.ceiling < w.leg.speed
          ∧ issue = w.issue i (.speedLimit w.leg.speed plan.limits.ceiling))
      ∧ (∀ tier, plan.summary.tiers.get tier
          = plan.waypoints.dropLast.countP fun w => plan.limits.tier w.leg.speed == tier)
      ∧ plan.summary.tiers.feasible = plan.waypoints.dropLast.countP (·.leg.feasible)
      ∧ (plan.limits.isValid = true →
          (∀ issue ∈ plan.report.speedLimits, ∃ w, plan.waypoints[issue.index]? = some w
              ∧ w.target.id = issue.id ∧ w.leg.feasible = false)
            ∧ (plan.report.speedLimits ≠ [] → 1 ≤ plan.summary.tiers.impossible)
            ∧ (plan.report.speedLimits ≠ [] ↔
                plan.limits.ceiling < plan.summary.maxSpeed)) := by
  have hsound := h.isSound
  have htiers : ∀ tier, plan.summary.tiers.get tier
      = plan.waypoints.dropLast.countP fun w => plan.limits.tier w.leg.speed == tier :=
    Summary.get_tiers hsound.current
  refine ⟨hsound.mem_speedLimits_iff hlong, htiers, ?_, fun hvalid => ⟨?_, ?_, ?_⟩⟩
  · -- What is counted as feasible is what the waypoints themselves say.
    refine (htiers .feasible).trans (List.countP_congr fun w hw => ?_)
    rw [hsound.feasible_eq (List.dropLast_subset _ hw)]
  · intro issue hissue
    obtain ⟨i, w, hw, hspeed, rfl⟩ := (hsound.mem_speedLimits_iff hlong issue).mp hissue
    refine ⟨w, hw, rfl, ?_⟩
    rw [hsound.feasible_eq (List.mem_of_getElem? hw), Limits.tier_of_ceiling_lt hvalid hspeed]
    rfl
  · intro hne
    obtain ⟨w, hw, hspeed⟩ := (hsound.speedLimits_ne_nil_iff hlong).mp hne
    have htier := Limits.tier_of_ceiling_lt hvalid hspeed
    show 1 ≤ plan.summary.tiers.get .impossible
    rw [htiers]
    exact List.one_le_countP_iff.mpr ⟨w, hw, by rw [htier]; rfl⟩
  · -- The greatest speed starts at zero, which a valid ceiling is not below.
    rw [hsound.speedLimits_ne_nil_iff hlong, summary, Summary.lt_maxSpeed_iff hsound.current]
    exact (or_iff_right (Limits.not_ceiling_lt_zero hvalid)).symm

end

/-- The corner has an issue about speed exactly when its greatest speed is above the
standard ceiling. -/
theorem speeds_agree_corner :
    ∃ start, ofWaypoints Limits.standard Legs.corner = .ok start
      ∧ 2 ≤ start.waypoints.length ∧ start.limits.isValid = true
      ∧ start.summary.tiers.feasible = start.waypoints.dropLast.countP (·.leg.feasible)
      ∧ (start.report.speedLimits ≠ [] ↔ (30.0 : Float) < start.summary.maxSpeed) := by
  have hlong : 2 ≤ (Legs.recompute Limits.standard Legs.corner).length := by decide
  have hvalid : (Limits.standard : Limits Float).isValid = true := by decide
  obtain ⟨-, -, hfeasible, hissues⟩ :=
    Reached.speeds_agree (.start (.ofWaypoints ofWaypoints_corner)) hlong
  exact ⟨_, ofWaypoints_corner, hlong, hvalid, hfeasible, (hissues hvalid).2.2⟩

end Plan

end FlightPlan
