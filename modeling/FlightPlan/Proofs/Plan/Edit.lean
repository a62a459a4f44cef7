import FlightPlan.Proofs.Legs.OneChange

/-!
# `FlightPlan.Proofs.Plan.Edit`: what each edit does

An `Edit` is one of the seven things that can be done to a plan, and `Plan.apply`
does it. `Plan.attempt` keeps the plan when the edit is refused, `Plan.run` tries
one edit after the other, and `Reached n plan` says that `n` edits were accepted
on the way from a plan nobody has edited yet.

Each edit has equations that say when it is refused, for which reason, and what
it leads to otherwise. They speak of a waypoint by its place in the sequence, so
that a proof about an edit need not look at the look-up again:

* `insert_eq` for a waypoint put in at any index;
* `remove_of_getElem?`, `move_of_getElem?` and `update_of_getElem?` for edits of
  a waypoint that is in the plan;
* `remove_of_not_mem`, `move_of_not_mem` and `update_of_not_mem` for the others.
-/

set_option autoImplicit false

namespace FlightPlan

open Legs (ids)

/-- An edit of a plan. -/
inductive Edit (α : Type) where
  | append (waypoint : Waypoint α)
  | insert (index : Nat) (waypoint : Waypoint α)
  | remove (id : WaypointId)
  | move (id : WaypointId) (goal : Nat)
  | update (id : WaypointId) (revision : Revision α)
  | clear
  | withLimits (limits : Limits α)

namespace Plan

variable {α : Type}

/-! ### Looking up -/

/-- An identifier of the plan belongs to a waypoint at some index. -/
theorem exists_of_mem_ids {waypoints : List (Waypoint α)} {id : WaypointId}
    (h : id ∈ ids waypoints) : ∃ (i : Nat) (w : Waypoint α),
      waypoints[i]? = some w ∧ w.target.id = id := by
  obtain ⟨w, hw, hid⟩ := Legs.mem_ids.mp h
  obtain ⟨i, hi⟩ := List.getElem?_of_mem hw
  exact ⟨i, w, hi, hid⟩

/-- Where identifiers are distinct, a waypoint is found at its own index. -/
theorem indexOf?_of_getElem? {plan : Plan α} (hdistinct : (ids plan.waypoints).Nodup)
    {i : Nat} {w : Waypoint α} (hw : plan.waypoints[i]? = some w) :
    plan.indexOf? w.target.id = some i :=
  Legs.findIdx?_id hdistinct hw

/-- Where identifiers are distinct, a waypoint is found under its own identifier. -/
theorem get?_of_getElem? {plan : Plan α} (hdistinct : (ids plan.waypoints).Nodup)
    {i : Nat} {w : Waypoint α} (hw : plan.waypoints[i]? = some w) :
    plan.get? w.target.id = some w := by
  -- Something is found, and by its identifier it can only be `w`.
  have hmem := List.mem_of_getElem? hw
  have hfound : (plan.get? w.target.id).isSome := by
    rw [get?, List.find?_isSome]
    exact ⟨w, hmem, by simp⟩
  obtain ⟨v, hv⟩ := Option.isSome_iff_exists.mp hfound
  have hid : v.target.id = w.target.id := by simpa using List.find?_some hv
  have hvmem : v ∈ plan.waypoints := List.mem_of_find?_eq_some hv
  rw [hv, Legs.eq_of_id_eq hdistinct hvmem hmem hid]

/-- Under an identifier that is not in the plan no index is found. -/
theorem indexOf?_of_not_mem {plan : Plan α} {id : WaypointId}
    (h : id ∉ ids plan.waypoints) : plan.indexOf? id = none := by
  rw [indexOf?, List.findIdx?_eq_none_iff]
  intro w hw
  have hne : w.target.id ≠ id := fun hid => h (Legs.mem_ids.mpr ⟨w, hw, hid⟩)
  simpa using hne

/-- The look-up by identifier succeeds exactly for the identifiers of the plan. -/
theorem isSome_get?_iff {plan : Plan α} {id : WaypointId} :
    (plan.get? id).isSome ↔ id ∈ ids plan.waypoints := by
  rw [get?, List.find?_isSome, Legs.mem_ids]
  simp only [beq_iff_eq]

/-- An edit finds the waypoint it names. -/
theorem findIndex_of_getElem? {plan : Plan α} (hdistinct : (ids plan.waypoints).Nodup)
    {i : Nat} {w : Waypoint α} (hw : plan.waypoints[i]? = some w) :
    plan.findIndex w.target.id = .ok i := by
  rw [findIndex, indexOf?_of_getElem? hdistinct hw]

/-- An edit that names no waypoint of the plan is refused. -/
theorem findIndex_of_not_mem {plan : Plan α} {id : WaypointId}
    (h : id ∉ ids plan.waypoints) : plan.findIndex id = .error (.unknownWaypoint id) := by
  rw [findIndex, indexOf?_of_not_mem h]

variable [Scalar α] [Geodesy α]

/-! ### Equations of the edits -/

/-- A waypoint is put in under three conditions, checked in this order. -/
theorem insert_eq (plan : Plan α) (index : Nat) (w : Waypoint α) :
    plan.insert index w =
      if plan.waypoints.length < index then
        .error (.indexOutOfRange index plan.waypoints.length)
      else if w.target.id ∈ ids plan.waypoints then .error (.duplicateWaypoint w.target.id)
      else if w.target.isPlaced then
        let grown := Legs.refresh plan.limits w.target.id (plan.waypoints.insertIdx index w)
        .ok (plan.advance
          (if index = plan.waypoints.length then Legs.pinTail grown else grown))
      else .error (.invalidPosition w.target) := by
  rw [insert]
  split
  · rfl
  · simp only [isSome_get?_iff]
    split
    · rfl
    · rw [checkPlaced]
      split
      · rfl
      · rfl

/-- A waypoint that is there is taken out, and all legs are computed. -/
theorem remove_of_getElem? {plan : Plan α} (hdistinct : (ids plan.waypoints).Nodup)
    {i : Nat} {w : Waypoint α} (hw : plan.waypoints[i]? = some w) :
    plan.remove w.target.id
      = .ok (plan.advance (Legs.recompute plan.limits (plan.waypoints.eraseIdx i))) := by
  rw [remove, findIndex_of_getElem? hdistinct hw]
  rfl

/-- A waypoint that is not there is not taken out. -/
theorem remove_of_not_mem {plan : Plan α} {id : WaypointId}
    (h : id ∉ ids plan.waypoints) : plan.remove id = .error (.unknownWaypoint id) := by
  rw [remove, findIndex_of_not_mem h]
  rfl

/-- A waypoint that is there is moved to every index that the plan has, and the legs are
refreshed. -/
theorem move_of_getElem? {plan : Plan α} (hdistinct : (ids plan.waypoints).Nodup)
    {i : Nat} {w : Waypoint α} (hw : plan.waypoints[i]? = some w) (goal : Nat) :
    plan.move w.target.id goal =
      if plan.waypoints.length ≤ goal then
        .error (.indexOutOfRange goal plan.waypoints.length)
      else
        .ok (plan.advance
          (Legs.refresh plan.limits w.target.id (relocate plan.waypoints i goal))) := by
  rw [move, findIndex_of_getElem? hdistinct hw]
  rfl

/-- A waypoint that is not there is not moved. -/
theorem move_of_not_mem {plan : Plan α} {id : WaypointId}
    (h : id ∉ ids plan.waypoints) (goal : Nat) :
    plan.move id goal = .error (.unknownWaypoint id) := by
  rw [move, findIndex_of_not_mem h]
  rfl

/-- A waypoint that is there is revised if it can then be flown to, and the legs are refreshed. -/
theorem update_of_getElem? {plan : Plan α} (hdistinct : (ids plan.waypoints).Nodup)
    {i : Nat} {w : Waypoint α} (hw : plan.waypoints[i]? = some w) (revision : Revision α) :
    plan.update w.target.id revision =
      if (w.target.revise revision).isPlaced then
        .ok (plan.advance (Legs.refresh plan.limits w.target.id
          (plan.waypoints.set i { w with target := w.target.revise revision })))
      else .error (.invalidPosition (w.target.revise revision)) := by
  rw [update, indexOf?_of_getElem? hdistinct hw, get?_of_getElem? hdistinct hw]
  simp only [checkPlaced]
  split
  · rfl
  · rfl

/-- A waypoint that is not there is not revised. -/
theorem update_of_not_mem {plan : Plan α} {id : WaypointId}
    (h : id ∉ ids plan.waypoints) (revision : Revision α) :
    plan.update id revision = .error (.unknownWaypoint id) := by
  rw [update, indexOf?_of_not_mem h]

/-! ### Runs of edits -/

/-- The plan after an edit, or why the edit was refused. -/
def apply (plan : Plan α) : Edit α → Except (EditError α) (Plan α)
  | .append waypoint => plan.append waypoint
  | .insert index waypoint => plan.insert index waypoint
  | .remove id => plan.remove id
  | .move id goal => plan.move id goal
  | .update id revision => plan.update id revision
  | .clear => .ok plan.clear
  | .withLimits limits => .ok (plan.withLimits limits)

/-- The plan after an edit was tried. A refused edit leaves it as it was. -/
def attempt (plan : Plan α) (edit : Edit α) : Plan α :=
  match plan.apply edit with
  | .ok next => next
  | .error _ => plan

/-- The plan after edits were tried, one after the other. -/
def run (plan : Plan α) (edits : List (Edit α)) : Plan α :=
  edits.foldl attempt plan

/-- A plan that nobody has edited yet: without waypoints, or of given ones. -/
inductive Unedited : Plan α → Prop where
  | empty (limits : Limits α) : Unedited (empty limits)
  | ofWaypoints {limits : Limits α} {waypoints : List (Waypoint α)} {plan : Plan α}
      (h : ofWaypoints limits waypoints = .ok plan) : Unedited plan

/-- The plan is reached by `n` accepted edits. -/
inductive Reached : Nat → Plan α → Prop where
  | start {plan : Plan α} (h : Unedited plan) : Reached 0 plan
  | edited {n : Nat} {plan next : Plan α} (h : Reached n plan) (edit : Edit α)
      (hnext : plan.apply edit = .ok next) : Reached (n + 1) next

/-- What a run leads to is reached by no more edits than were tried. -/
theorem Reached.run {n : Nat} {plan : Plan α} (h : Reached n plan) (edits : List (Edit α)) :
    ∃ m, m ≤ n + edits.length ∧ Reached m (plan.run edits) := by
  induction edits generalizing n plan with
  | nil => exact ⟨n, Nat.le_refl _, h⟩
  | cons edit rest ih =>
      rw [Plan.run, List.foldl_cons, attempt]
      cases hnext : plan.apply edit with
      | ok next =>
          obtain ⟨m, hm, hreached⟩ := ih (h.edited edit hnext)
          exact ⟨m, by rw [List.length_cons]; omega, hreached⟩
      | error _ =>
          obtain ⟨m, hm, hreached⟩ := ih h
          exact ⟨m, by rw [List.length_cons]; omega, hreached⟩

end Plan

end FlightPlan
