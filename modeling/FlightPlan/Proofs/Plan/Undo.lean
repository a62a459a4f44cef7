import FlightPlan.Proofs.Plan.Targets

/-!
# `FlightPlan.Proofs.Plan.Undo`: edits taken back

A move is taken back by a move to where the waypoint was, an insertion by a removal, and a
revision by the revision that writes the replaced parts back (`Revision.undoing`). The plan is
then as it was, legs included, and two edits older.

That the targets are as they were is a matter of lists, and is proved of itineraries
(`Itinerary.apply_move_back`, `Itinerary.apply_remove_inserted`, `Itinerary.apply_update_back`).
The legs need no argument of their own. The two steps may compute them in different ways, but
every plan on the way is sound, and a sound plan is told by its itinerary (`IsSound.apply_back`).
`Reached.edits_undone` states the three cases for every plan that edits lead to.
-/

set_option autoImplicit false

namespace FlightPlan

variable {α : Type}

/-! ### Revisions -/

/-- The revision that writes back the parts of a target that another revision replaces. -/
def Revision.undoing (r : Revision α) (target : Target α) : Revision α where
  name := r.name.map fun _ => target.name
  lat := r.lat.map fun _ => target.position.lat
  lon := r.lon.map fun _ => target.position.lon
  altitude := r.altitude.map fun _ => target.altitude
  time := r.time.map fun _ => target.time
  headingMode := r.headingMode.map fun _ => target.headingMode

/-- A revision is taken back part by part. -/
theorem Target.revise_undoing (target : Target α) (r : Revision α) :
    (target.revise r).revise (r.undoing target) = target := by
  have hpart {β : Type} (given : Option β) (old : β) :
      (given.map fun _ => old).getD (given.getD old) = old := by
    cases given with
    | none => rfl
    | some new => rfl
  simp only [revise, Revision.undoing, hpart]

/-! ### Itineraries -/

namespace Itinerary

variable {itinerary next : Itinerary α}

/-- The itinerary with its targets as they were, two edits later. -/
theorem advance_advance (targets : List (Target α)) :
    (itinerary.advance targets).advance itinerary.targets
      = { itinerary with version := itinerary.version + 2 } := by
  show Itinerary.mk (itinerary.version + 1 + 1) itinerary.limits itinerary.targets = _
  rw [UInt64.add_assoc]
  rfl

variable [Scalar α] [Geodesy α]

/-- A target that was moved is moved back. -/
theorem apply_move_back (hdistinct : itinerary.ids.Nodup) {i goal : Nat} {target : Target α}
    (ht : itinerary.targets[i]? = some target)
    (hnext : itinerary.apply (.move target.id goal) = .ok next) :
    next.apply (.move target.id i) = .ok { itinerary with version := itinerary.version + 2 } := by
  rw [apply_move_of_get? (get?_of_mem hdistinct (List.mem_of_getElem? ht))] at hnext
  split at hnext
  · cases hnext
  · obtain rfl := Except.ok.inj hnext
    have hfound : (itinerary.advance (spliced (without target.id itinerary.targets) goal
        target)).get? target.id = some target := find?_spliced_without goal
    have hcount : ¬ (spliced (without target.id itinerary.targets) goal target).length ≤ i := by
      have hi := (List.getElem?_eq_some_iff.mp ht).1
      rw [length_spliced, length_without hdistinct ht]
      omega
    -- Without the target the list is what it was without it before, wherever it went.
    rw [apply_move_of_get? hfound, targets_advance, if_neg hcount, without_spliced,
      without_without, spliced_without hdistinct ht, advance_advance]

/-- Whatever heading it comes in with, a target that comes in is put in at its index. -/
theorem exists_of_insert_eq_ok {index : Nat} {target : Target α}
    (hnext : itinerary.insert index target = .ok next) :
    target.id ∉ itinerary.ids
      ∧ ∃ added : Target α, added.id = target.id
        ∧ next = itinerary.advance (spliced itinerary.targets index added) := by
  unfold insert at hnext
  simp only at hnext
  split at hnext
  · cases hnext
  · split at hnext
    · cases hnext
    · rename_i hid
      split at hnext
      · obtain rfl := Except.ok.inj hnext
        refine ⟨hid, ?_⟩
        split
        · -- Behind the last one it may come in with another heading, but under its identifier.
          rename_i htail
          refine ⟨arriving itinerary.targets target, ?_, ?_⟩
          · unfold arriving
            split <;> rfl
          · rw [htail, spliced, List.take_length, List.drop_length]
        · exact ⟨target, rfl, rfl⟩
      · cases hnext

/-- A target that was put in is taken out. -/
theorem apply_remove_inserted {index : Nat} {target : Target α}
    (hnext : itinerary.insert index target = .ok next) :
    next.apply (.remove target.id)
      = .ok { itinerary with version := itinerary.version + 2 } := by
  obtain ⟨hid, added, hadded, rfl⟩ := exists_of_insert_eq_ok hnext
  rw [← hadded] at hid ⊢
  have hwithout := without_eq_self hid
  have hfound : (itinerary.advance (spliced itinerary.targets index added)).get? added.id
      = some added := by
    calc
      (spliced itinerary.targets index added).find? (·.id == added.id)
          = (spliced (without added.id itinerary.targets) index added).find?
              (·.id == added.id) := by
        rw [hwithout]
      _ = some added := find?_spliced_without index
  rw [apply_remove_of_get? hfound, targets_advance, without_spliced, hwithout, advance_advance]

/-- A target that was revised is revised back, if it was one that can be flown to. -/
theorem apply_update_back (hdistinct : itinerary.ids.Nodup) {target : Target α}
    (ht : target ∈ itinerary.targets) (hplaced : target.isPlaced = true) {r : Revision α}
    (hnext : itinerary.apply (.update target.id r) = .ok next) :
    next.apply (.update target.id (r.undoing target))
      = .ok { itinerary with version := itinerary.version + 2 } := by
  have hget := get?_of_mem hdistinct ht
  rw [apply_update_of_get? hget] at hnext
  split at hnext
  · obtain rfl := Except.ok.inj hnext
    have hid := Target.id_revise target r
    have hfound : (itinerary.replace target.id (target.revise r)).get? target.id
        = some (target.revise r) := by
      rw [get?_replace hid, hget, Option.map_some, if_pos rfl]
    rw [apply_update_of_get? hfound, Target.revise_undoing, if_pos hplaced, replace,
      targets_replace, replaced_replaced hid, replaced_self hdistinct ht, replace,
      advance_advance]
  · cases hnext

end Itinerary

/-! ### Plans -/

namespace Plan

variable [Scalar α] [Geodesy α] {plan next : Plan α}

/-- What takes an edit of the itinerary back takes it back in the plan. -/
theorem IsSound.apply_back (h : plan.IsSound) (edit : Edit α) {back : Edit α}
    (hnext : plan.apply edit = .ok next)
    (hback : ∀ after, plan.itinerary.apply edit = .ok after →
      after.apply back = .ok { plan.itinerary with version := plan.version + 2 }) :
    next.apply back = .ok { plan with version := plan.version + 2 } :=
  (h.apply hnext).apply_eq_ok h (hback next.itinerary (h.itinerary_of_apply hnext))

/-- Edits of a plan that edits lead to are taken back. A waypoint moved to any index and back,
put in and taken out, or revised and given back the parts that were replaced leaves the plan as
it was, with every target and every leg, two edits later. -/
theorem Reached.edits_undone {n : Nat} (h : Reached n plan) :
    (∀ {i goal : Nat} {w : Waypoint α}, plan.waypoints[i]? = some w →
        goal < plan.waypoints.length →
        ∃ moved, plan.move w.target.id goal = .ok moved
          ∧ moved.move w.target.id i = .ok { plan with version := plan.version + 2 })
      ∧ (∀ {index : Nat} {w : Waypoint α} {grown : Plan α}, plan.insert index w = .ok grown →
        grown.remove w.target.id = .ok { plan with version := plan.version + 2 })
      ∧ (∀ {id : WaypointId} {r : Revision α} {revised : Plan α}, plan.update id r = .ok revised →
        ∃ w ∈ plan.waypoints, w.target.id = id
          ∧ revised.update id (r.undoing w.target)
              = .ok { plan with version := plan.version + 2 }) := by
  have hsound := h.isSound
  have hdistinct : plan.itinerary.ids.Nodup := hsound.distinct_targets
  refine ⟨?_, ?_, ?_⟩
  · -- A move to an index of the plan is never refused.
    intro i goal w hw hgoal
    have hmoved := move_of_getElem? hsound.distinct hw goal
    rw [if_neg (Nat.not_le.mpr hgoal)] at hmoved
    exact ⟨_, hmoved, hsound.apply_back (.move w.target.id goal) hmoved fun _ =>
      Itinerary.apply_move_back hdistinct (getElem?_map_target hw)⟩
  · intro index w grown hgrown
    exact hsound.apply_back (.insert index w) hgrown fun _ =>
      Itinerary.apply_remove_inserted
  · -- An accepted revision is one of a waypoint of the plan.
    intro id r revised hrevised
    by_cases hid : id ∈ Legs.ids plan.waypoints
    · obtain ⟨w, hw, rfl⟩ := Legs.mem_ids.mp hid
      exact ⟨w, hw, rfl, hsound.apply_back (.update w.target.id r) hrevised fun _ =>
        Itinerary.apply_update_back hdistinct (List.mem_map_of_mem hw) (hsound.placed w hw)⟩
    · rw [update_of_not_mem hid] at hrevised
      cases hrevised

/-- The end of the corner is dragged to its front and back, a waypoint comes in behind the corner
and goes again, and the middle one loses and regains its time and its heading mode. -/
theorem edits_undone_corner :
    ∃ start, ofWaypoints Limits.standard Legs.corner = .ok start
      ∧ (∃ moved, start.move (Legs.idOf 3) 0 = .ok moved
        ∧ moved.move (Legs.idOf 3) 2 = .ok { start with version := 2 })
      ∧ (∃ grown, start.insert 3 (Legs.waypointOf 4 35.0018 51.0011 120.0 50.0) = .ok grown
        ∧ grown.remove (Legs.idOf 4) = .ok { start with version := 2 })
      ∧ ∃ r revised, r = ⟨none, none, none, none, some (0.0 / 0.0), some (.manual 90.0)⟩
        ∧ start.update (Legs.idOf 2) r = .ok revised
        ∧ ∃ w ∈ start.waypoints, w.target.id = Legs.idOf 2
          ∧ revised.update (Legs.idOf 2) (r.undoing w.target)
              = .ok { start with version := 2 } := by
  let start : Plan Float := ⟨0, Limits.standard, Legs.recompute Limits.standard Legs.corner⟩
  have hreached : Reached 0 start := .start (.ofWaypoints ofWaypoints_corner)
  obtain ⟨hmove, hinsert, hupdate⟩ := hreached.edits_undone
  have hlast : start.waypoints[2]? = some _ := rfl
  have hgrown : ∃ grown,
      start.insert 3 (Legs.waypointOf 4 35.0018 51.0011 120.0 50.0) = .ok grown := by
    have hinsert := insert_eq start 3 (Legs.waypointOf 4 35.0018 51.0011 120.0 50.0)
    rw [if_neg (by decide), if_neg (by decide), if_pos (by decide)] at hinsert
    exact ⟨_, hinsert⟩
  have hrevised : ∃ revised, start.update (Legs.idOf 2)
      ⟨none, none, none, none, some (0.0 / 0.0), some (.manual 90.0)⟩ = .ok revised := by
    have hmiddle : start.waypoints[1]? = some _ := rfl
    have hupdate := update_of_getElem? hreached.isSound.distinct hmiddle
      ⟨none, none, none, none, some (0.0 / 0.0), some (.manual 90.0)⟩
    rw [if_pos (by decide)] at hupdate
    exact ⟨_, hupdate⟩
  obtain ⟨grown, hgrown⟩ := hgrown
  obtain ⟨revised, hrevised⟩ := hrevised
  exact ⟨start, ofWaypoints_corner, hmove hlast (by decide), ⟨grown, hgrown, hinsert hgrown⟩,
    _, revised, rfl, hrevised, hupdate hrevised⟩

end Plan

end FlightPlan
