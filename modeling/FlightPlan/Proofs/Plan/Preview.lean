import FlightPlan.Proofs.Plan.Itinerary
import FlightPlan.Proofs.Plan.Speeds

/-!
# `FlightPlan.Proofs.Plan.Preview`: the speed shown before a waypoint is put down

While a waypoint is dragged, `Speed.preview` shows the speed of the leg to where it would be put
down. It looks at two targets and a position, and no plan is made for it. Putting the waypoint
down is an update of its position. That it leads to a plan with the speed shown is stated by
`Reached.preview_eq_stored`: the waypoint before stores that speed, and so does the waypoint
itself if it is the last.

The update is accepted wherever the position is valid, because nothing but the position changes
of what was checked before (`IsSound.exists_update_position`). In the plan it leads to every
stored speed is the one its leg requires, and the preview is that of the leg to the new target.
-/

set_option autoImplicit false

namespace FlightPlan

/-- The revision that puts a target at a position. -/
def Revision.toPosition {α : Type} (position : Position α) : Revision α :=
  ⟨none, some position.lat, some position.lon, none, none, none⟩

/-- It replaces the position and nothing else. -/
theorem Target.revise_toPosition {α : Type} (target : Target α) (position : Position α) :
    target.revise (.toPosition position) = { target with position } := rfl

namespace Plan

variable {α : Type} [Scalar α] [Geodesy α] {plan : Plan α}

/-- A waypoint of a sound plan can be put down at every valid position. The targets of the plan
are the same then, but for that position. -/
theorem IsSound.exists_update_position (h : plan.IsSound) {i : Nat} {w : Waypoint α}
    (hw : plan.waypoints[i]? = some w) {position : Position α}
    (hposition : position.isValid = true) :
    ∃ next, plan.update w.target.id (.toPosition position) = .ok next
      ∧ next.waypoints.map Waypoint.target
          = (plan.waypoints.map Waypoint.target).set i { w.target with position } := by
  have hplaced : Target.isPlaced { w.target with position } = true := by
    have hbefore := h.placed w (List.mem_of_getElem? hw)
    rw [Target.isPlaced, Bool.and_eq_true] at hbefore ⊢
    exact ⟨hposition, hbefore.2⟩
  have hupdate := update_of_getElem? h.distinct hw (.toPosition position)
  rw [Target.revise_toPosition, if_pos hplaced] at hupdate
  refine ⟨_, hupdate, ?_⟩
  show (Legs.refresh plan.limits w.target.id _).map Waypoint.target = _
  rw [Legs.map_target_refresh, List.map_set]

/-- A waypoint of a plan that edits lead to is put down at a valid position, and another is right
before it. Then the one before stores the speed that the preview showed from it to the position,
and the one put down stores it too if nothing follows. -/
theorem Reached.preview_eq_stored {n : Nat} (h : Reached n plan) {i : Nat}
    {origin goal : Waypoint α} (horigin : plan.waypoints[i]? = some origin)
    (hgoal : plan.waypoints[i + 1]? = some goal) {position : Position α}
    (hposition : position.isValid = true) :
    ∃ next, plan.update goal.target.id (.toPosition position) = .ok next
      ∧ next.waypoints[i]?.map (·.leg.speed)
          = some (Speed.preview origin.target goal.target position)
      ∧ (plan.waypoints.length = i + 2 →
          next.waypoints[i + 1]?.map (·.leg.speed)
            = some (Speed.preview origin.target goal.target position)) := by
  obtain ⟨next, hnext, htargets⟩ := h.isSound.exists_update_position hgoal hposition
  have hcurrent := (h.isSound.update hnext).current
  -- The two waypoints of the leg are where they were, the second one at the position.
  obtain ⟨v, hv, hvtarget⟩ : ∃ v, next.waypoints[i]? = some v ∧ v.target = origin.target := by
    rw [← Option.map_eq_some_iff, ← List.getElem?_map, htargets,
      List.getElem?_set_ne (Nat.succ_ne_self i), getElem?_map_target horigin]
  obtain ⟨w, hw, hwtarget⟩ :
      ∃ w, next.waypoints[i + 1]? = some w ∧ w.target = { goal.target with position } := by
    have hlength := (List.getElem?_eq_some_iff.mp (getElem?_map_target hgoal)).1
    rw [← Option.map_eq_some_iff, ← List.getElem?_map, htargets, List.getElem?_set_self hlength]
  have hpreview : Speed.preview origin.target goal.target position
      = Speed.required v.target w.target := by
    rw [hvtarget, hwtarget, Speed.preview]
  refine ⟨next, hnext, ?_, ?_⟩
  · rw [hv, hpreview, Option.map_some, Legs.speed_of_leg hcurrent hv hw]
  · intro hlast
    have hlength : next.waypoints.length = i + 2 := by
      have hcount := congrArg List.length htargets
      rwa [List.length_map, List.length_set, List.length_map, hlast] at hcount
    rw [hw, hpreview, Option.map_some, Legs.speed_of_last_leg hcurrent hv hw hlength]

/-- The end of the corner is put down south of where it was. -/
theorem preview_eq_stored_corner :
    ∃ start, ofWaypoints Limits.standard Legs.corner = .ok start
      ∧ (⟨35.0005, 51.0011⟩ : Position Float).isValid = true
      ∧ ∃ next, start.update (Legs.idOf 3) (.toPosition ⟨35.0005, 51.0011⟩) = .ok next
        ∧ next.waypoints[1]?.map (·.leg.speed)
            = some (Speed.preview (Legs.waypointOf 2 35.0009 51.0 100.0 10.0).target
                (Legs.waypointOf 3 35.0009 51.0011 120.0 40.0).target ⟨35.0005, 51.0011⟩)
        ∧ next.waypoints[2]?.map (·.leg.speed) = next.waypoints[1]?.map (·.leg.speed) := by
  have hposition : (⟨35.0005, 51.0011⟩ : Position Float).isValid = true := by decide
  obtain ⟨next, hnext, hbefore, hlast⟩ :=
    Reached.preview_eq_stored (.start (.ofWaypoints ofWaypoints_corner)) (i := 1) rfl rfl hposition
  exact ⟨_, ofWaypoints_corner, hposition, next, hnext, hbefore,
    (hlast rfl).trans hbefore.symm⟩

end Plan

end FlightPlan
