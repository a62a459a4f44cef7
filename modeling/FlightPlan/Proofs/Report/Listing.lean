import FlightPlan.Clearance
import FlightPlan.Proofs.Legs.Pointwise

/-!
# `FlightPlan.Proofs.Report.Listing`: what each check finds

A check walks over entries that carry their index and finds at most one issue at each. What it
finds is a listing (`Report.Lists`): it holds the issues that a property describes, each of them
once, in the order of their indexes. `lists_filterMap` proves this of every such check, so for one
of them there is only to say what it finds at one index.

* `lists_timeIssues`: an issue with times for every waypoint that is not later than the one before
  it, under the index of the second of the two (`IsOutOfOrder`).
* `lists_speedIssues`: an issue with speeds for every waypoint that reports a leg above the ceiling
  (`IsTooFast`). Which leg a waypoint reports says `Legs.Reports`.
* `lists_clearanceIssues`: an issue with clearance for every waypoint that can be flown to and has
  too little of it above known ground (`IsTooLow`).
-/

set_option autoImplicit false

namespace FlightPlan

open Legs (Reports)

namespace Report

/-! ### Listings -/

section
variable {α : Type}

/-- The issues are those that a property describes, each of them once, in the order of their
indexes. -/
structure Lists (issues : List (Issue α)) (describes : Issue α → Prop) : Prop where
  ascending : issues.Pairwise fun a b => a.index < b.index
  mem_iff (issue : Issue α) : issue ∈ issues ↔ describes issue

/-- Two properties that describe the same issues have the same listing. -/
theorem Lists.congr {issues : List (Issue α)} {describes describes' : Issue α → Prop}
    (h : Lists issues describes) (hsame : ∀ issue, describes issue ↔ describes' issue) :
    Lists issues describes' :=
  ⟨h.ascending, fun issue => (h.mem_iff issue).trans (hsame issue)⟩

/-- A listing is empty when nothing is described. -/
theorem Lists.eq_nil_iff {issues : List (Issue α)} {describes : Issue α → Prop}
    (h : Lists issues describes) : issues = [] ↔ ∀ issue, ¬ describes issue := by
  simp only [List.eq_nil_iff_forall_not_mem, h.mem_iff]

/-- What a check finds in entries that carry their index is a listing, if it files each issue under
the index of its entry. -/
theorem lists_filterMap {β : Type} (entries : List β) (first : Nat)
    (check : β → Nat → Option (Issue α))
    (hindex : ∀ entry i issue, check entry i = some issue → issue.index = i) :
    Lists ((entries.zipIdx first).filterMap fun entry => check entry.1 entry.2) fun issue =>
      ∃ i entry, entries[i]? = some entry ∧ check entry (first + i) = some issue where
  ascending := by
    -- The entries carry ascending indexes, and the check leaves some of them out.
    have hzip : (entries.zipIdx first).Pairwise fun a b => a.2 < b.2 := by
      rw [← List.pairwise_map, List.zipIdx_map_snd]
      exact List.pairwise_lt_range'
    refine List.Pairwise.filterMap _ ?_ hzip
    intro a b hab issue hissue issue' hissue'
    rw [hindex _ _ _ hissue, hindex _ _ _ hissue']
    exact hab
  mem_iff issue := by
    rw [List.mem_filterMap]
    constructor
    · rintro ⟨⟨entry, k⟩, hmem, hfound⟩
      obtain ⟨hk, hentry⟩ := List.mk_mem_zipIdx_iff_le_and_getElem?_sub.mp hmem
      refine ⟨k - first, entry, hentry, ?_⟩
      rwa [Nat.add_sub_cancel' hk]
    · rintro ⟨i, entry, hentry, hfound⟩
      refine ⟨(entry, first + i), ?_, hfound⟩
      rw [List.mk_mem_zipIdx_iff_le_and_getElem?_sub, Nat.add_sub_cancel_left]
      exact ⟨Nat.le_add_right first i, hentry⟩

end

variable {α : Type} [Scalar α]

/-! ### Times -/

/-- The issue is about a waypoint that is not later than the one before it. -/
def IsOutOfOrder (waypoints : List (Waypoint α)) (issue : Issue α) : Prop :=
  ∃ i v w, waypoints[i]? = some v ∧ waypoints[i + 1]? = some w
    ∧ ¬ v.target.time < w.target.time
    ∧ issue = ⟨i + 1, w.target.id, w.target.name,
        .timeOrder v.target.name v.target.time w.target.time⟩

/-- The check of times finds an issue with the second of two waypoints that is not later. -/
theorem timeIssue?_eq_some_iff {v w : Waypoint α} {index : Nat} {issue : Issue α} :
    timeIssue? v w index = some issue ↔
      ¬ v.target.time < w.target.time
        ∧ issue = ⟨index, w.target.id, w.target.name,
            .timeOrder v.target.name v.target.time w.target.time⟩ := by
  by_cases h : v.target.time < w.target.time
  · simp [timeIssue?, h]
  · simp [timeIssue?, h, Waypoint.issue, eq_comm]

/-- The issues with times. -/
theorem lists_timeIssues (waypoints : List (Waypoint α)) :
    Lists (timeIssues waypoints) (IsOutOfOrder waypoints) := by
  have hlists := lists_filterMap (waypoints.zip waypoints.tail) 1
    (fun pair index => timeIssue? pair.1 pair.2 index) fun pair i issue hfound => by
      rw [(timeIssue?_eq_some_iff.mp hfound).2]
  -- A pair is the entry under the index of its second waypoint.
  refine hlists.congr fun issue => ?_
  constructor
  · rintro ⟨i, ⟨v, w⟩, hpair, hfound⟩
    obtain ⟨hv, hw⟩ := List.getElem?_zip_eq_some.mp hpair
    rw [List.getElem?_tail] at hw
    rw [Nat.add_comm] at hfound
    exact ⟨i, v, w, hv, hw, timeIssue?_eq_some_iff.mp hfound⟩
  · rintro ⟨i, v, w, hv, hw, hfound⟩
    refine ⟨i, (v, w), List.getElem?_zip_eq_some.mpr ⟨hv, by rwa [List.getElem?_tail]⟩, ?_⟩
    rw [Nat.add_comm]
    exact timeIssue?_eq_some_iff.mpr hfound

/-! ### Clearance -/

/-- The issue is about a waypoint at an index that has less than the least clearance above ground
that is known. -/
def IsTooLow (limits : Limits α) (terrain : Terrain α) (i : Nat) (w : Waypoint α)
    (issue : Issue α) : Prop :=
  ∃ ground, terrain w.target.position = some ground
    ∧ w.target.altitude - ground < limits.clearance
    ∧ issue = ⟨i, w.target.id, w.target.name,
        .groundClearance w.target.altitude ground (w.target.altitude - ground) limits.clearance⟩

/-- The check of clearance finds an issue with a waypoint that can be flown to and is too low. -/
theorem clearanceIssue?_eq_some_iff {limits : Limits α} {terrain : Terrain α} {w : Waypoint α}
    {index : Nat} {issue : Issue α} :
    clearanceIssue? limits terrain w index = some issue ↔
      w.target.isPlaced = true ∧ IsTooLow limits terrain index w issue := by
  cases hplaced : w.target.isPlaced with
  | false => simp [clearanceIssue?, hplaced]
  | true =>
      cases hground : terrain w.target.position with
      | none => simp [clearanceIssue?, IsTooLow, hplaced, hground]
      | some ground =>
          by_cases hlow : w.target.altitude - ground < limits.clearance
          · simp [clearanceIssue?, IsTooLow, Target.clearance, Waypoint.issue, hplaced, hground,
              hlow, eq_comm]
          · simp [clearanceIssue?, IsTooLow, Target.clearance, hplaced, hground, hlow]

/-- The issues with clearance. -/
theorem lists_clearanceIssues (limits : Limits α) (terrain : Terrain α)
    (waypoints : List (Waypoint α)) :
    Lists (ofTerrain limits terrain waypoints).issues fun issue =>
      ∃ i w, waypoints[i]? = some w ∧ w.target.isPlaced = true
        ∧ IsTooLow limits terrain i w issue := by
  have hlists := lists_filterMap waypoints 0 (clearanceIssue? limits terrain)
    fun w i issue hfound => by
      obtain ⟨-, _, -, -, rfl⟩ := clearanceIssue?_eq_some_iff.mp hfound
      rfl
  refine hlists.congr fun issue => ?_
  simp only [Nat.zero_add, clearanceIssue?_eq_some_iff]

/-! ### Speeds -/

variable [Geodesy α]

/-- The issue is about a waypoint that reports a leg above the ceiling. -/
def IsTooFast (limits : Limits α) (waypoints : List (Waypoint α)) (issue : Issue α) : Prop :=
  ∃ i w origin goal, waypoints[i]? = some w ∧ Reports waypoints i origin goal
    ∧ limits.ceiling < Speed.required origin goal
    ∧ issue = ⟨i, w.target.id, w.target.name,
        .speedLimit (Speed.required origin goal) limits.ceiling⟩

/-- The check of speeds finds an issue with a placed waypoint whose leg is above the ceiling. -/
theorem speedIssue?_eq_some_iff {limits : Limits α} {p : Placed α} {index : Nat}
    {issue : Issue α} :
    speedIssue? limits p index = some issue ↔
      ∃ origin goal, p.ends = some (origin, goal)
        ∧ limits.ceiling < Speed.required origin goal
        ∧ issue = ⟨index, p.here.target.id, p.here.target.name,
            .speedLimit (Speed.required origin goal) limits.ceiling⟩ := by
  cases hends : p.ends with
  | none => simp [speedIssue?, Placed.speed?, hends]
  | some ends =>
      obtain ⟨origin, goal⟩ := ends
      by_cases hfast : limits.ceiling < Speed.required origin goal
      · simp [speedIssue?, Placed.speed?, hends, Limits.exceedsCeiling, hfast, Waypoint.issue,
          eq_comm]
      · simp [speedIssue?, Placed.speed?, hends, Limits.exceedsCeiling, hfast]

/-- The issues with speeds. -/
theorem lists_speedIssues (limits : Limits α) (waypoints : List (Waypoint α)) :
    Lists (speedIssues limits waypoints) (IsTooFast limits waypoints) := by
  have hlists := lists_filterMap (Legs.placed waypoints) 0
    (fun p index => speedIssue? limits p index) fun p i issue hfound => by
      obtain ⟨_, _, -, -, rfl⟩ := speedIssue?_eq_some_iff.mp hfound
      rfl
  refine hlists.congr fun issue => ?_
  simp only [Nat.zero_add, speedIssue?_eq_some_iff]
  constructor
  · rintro ⟨i, p, hp, origin, goal, hends, hfast, rfl⟩
    exact ⟨i, p.here, origin, goal, (Legs.getElem?_placed_eq_some.mp hp).1,
      (Legs.reports_iff_ends hp).mpr hends, hfast, rfl⟩
  · rintro ⟨i, w, origin, goal, hw, hreports, hfast, rfl⟩
    obtain ⟨p, hp, rfl⟩ := Legs.exists_placed hw
    exact ⟨i, p, hp, origin, goal, (Legs.reports_iff_ends hp).mp hreports, hfast, rfl⟩

end Report

end FlightPlan
