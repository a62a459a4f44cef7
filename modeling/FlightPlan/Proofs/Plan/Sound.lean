import FlightPlan.Proofs.Legs.Refresh
import FlightPlan.Proofs.Plan.Edit

/-!
# `FlightPlan.Proofs.Plan.Sound`: what holds of every plan

A sequence is sound under limits (`Sound`) when no identifier comes twice, every
waypoint can be flown to, and every waypoint reports the leg that a full
computation gives it. Plans start sound, because `ofWaypoints` refuses what is
not and computes the legs. Every accepted edit keeps them sound:

* an edit that recomputes does so whatever the legs were (`Sound.of_recompute`);
* an edit that refreshes makes one change of a sound sequence, and then refreshing
  is recomputing (`Sound.refresh_eq_recompute`);
* pinning the tail keeps what it was computed with (`Sound.pinTail`).

`Plan.run_keeps_current` puts the three conditions together for any run of edits,
accepted or refused, from any plan nobody has edited yet.
-/

set_option autoImplicit false

namespace FlightPlan

open Legs (ids OneChange)

variable {α : Type} [Scalar α]

/-- A target can be flown to when its coordinates are in range, poles and date line
included, and all its numbers of place are finite. -/
theorem Target.isPlaced_iff {target : Target α} :
    target.isPlaced = true ↔
      (Scalar.isFinite target.position.lat = true ∧ Scalar.isFinite target.position.lon = true)
        ∧ (-90.0 ≤ target.position.lat ∧ target.position.lat ≤ 90.0)
        ∧ (-180.0 ≤ target.position.lon ∧ target.position.lon ≤ 180.0)
        ∧ Scalar.isFinite target.altitude = true := by
  simp only [isPlaced, Position.isValid, Position.isFinite, Position.within, Bool.and_eq_true,
    decide_eq_true_eq, and_assoc]

/-- Whether a target can be flown to is seen without its name and heading mode. -/
theorem Target.isPlaced_bare (target : Target α) : target.bare.isPlaced = target.isPlaced := rfl

variable [Geodesy α]

/-- What holds of the waypoints of every plan. -/
structure Sound (limits : Limits α) (waypoints : List (Waypoint α)) : Prop where
  /-- No identifier comes twice. -/
  distinct : (ids waypoints).Nodup
  /-- Every waypoint can be flown to. -/
  placed : ∀ w ∈ waypoints, w.target.isPlaced = true
  /-- Every leg is what a full computation makes it. -/
  current : Legs.recompute limits waypoints = waypoints

namespace Sound

variable {limits : Limits α} {waypoints : List (Waypoint α)}

/-- Without waypoints everything holds. -/
theorem nil (limits : Limits α) : Sound limits [] where
  distinct := List.nodup_nil
  placed := fun _ hw => nomatch hw
  current := rfl

/-- A full computation makes current what is distinct and placed. -/
theorem of_recompute (limits : Limits α) (hdistinct : (ids waypoints).Nodup)
    (hplaced : ∀ w ∈ waypoints, w.target.isPlaced = true) :
    Sound limits (Legs.recompute limits waypoints) where
  distinct := by rwa [Legs.ids_congr (Legs.map_target_recompute limits waypoints)]
  placed := by
    intro w hw
    have hmem : w.target ∈ (Legs.recompute limits waypoints).map Waypoint.target :=
      List.mem_map_of_mem hw
    rw [Legs.map_target_recompute, List.mem_map] at hmem
    obtain ⟨v, hv, htarget⟩ := hmem
    rw [← htarget]
    exact hplaced v hv
  current := Legs.recompute_recompute limits waypoints

/-- After one change of a sound sequence, refreshing is recomputing. -/
theorem refresh_eq_recompute (h : Sound limits waypoints) {id : WaypointId}
    {changed : List (Waypoint α)} (hchange : OneChange waypoints id changed) :
    Legs.refresh limits id changed = Legs.recompute limits changed := by
  have hagree := hchange.agreeBut h.distinct
  exact hagree.refresh_eq_recompute limits fun w hw hne =>
    Legs.isCurrent_of_recompute_eq_self h.current (hagree.mem_first hw hne)

/-- One change that leaves all waypoints placed is followed by a sound sequence. -/
theorem refresh (h : Sound limits waypoints) {id : WaypointId} {changed : List (Waypoint α)}
    (hchange : OneChange waypoints id changed)
    (hplaced : ∀ w ∈ changed, w.target.isPlaced = true) :
    Sound limits (Legs.refresh limits id changed) := by
  rw [h.refresh_eq_recompute hchange]
  exact of_recompute limits (hchange.agreeBut h.distinct).distinct_second hplaced

/-- Pinning the tail keeps a sequence sound. -/
theorem pinTail (h : Sound limits waypoints) : Sound limits (Legs.pinTail waypoints) := by
  -- Pinning changes a heading mode. Identifiers and places are those of the bare targets.
  have hbare := Legs.map_bare_pinTail waypoints
  refine ⟨?_, ?_, Legs.recompute_pinTail h.current⟩
  · have hids : ids (Legs.pinTail waypoints) = ids waypoints := by
      have hmap := congrArg (List.map Target.id) hbare
      rw [List.map_map, List.map_map] at hmap
      exact hmap
    rw [hids]
    exact h.distinct
  · intro w hw
    have hmem : w.target.bare ∈ (Legs.pinTail waypoints).map (·.target.bare) :=
      List.mem_map_of_mem hw
    rw [hbare, List.mem_map] at hmem
    obtain ⟨v, hv, htarget⟩ := hmem
    rw [← Target.isPlaced_bare, ← htarget, Target.isPlaced_bare]
    exact h.placed v hv

end Sound

namespace Plan

/-- The waypoints of the plan are sound under its limits. -/
def IsSound (plan : Plan α) : Prop :=
  Sound plan.limits plan.waypoints

/-! ### Plans start sound -/

omit [Geodesy α] in
/-- The check of a given sequence passes when all waypoints can be flown to and no
identifier is repeated, among them or from what was seen before. -/
theorem checkAll_eq_ok_iff {seen : List WaypointId} {waypoints : List (Waypoint α)} :
    checkAll seen waypoints = .ok () ↔
      (∀ w ∈ waypoints, w.target.isPlaced = true) ∧ (ids waypoints).Nodup
        ∧ ∀ w ∈ waypoints, w.target.id ∉ seen := by
  induction waypoints generalizing seen with
  | nil => simp [checkAll, ids]
  | cons w rest ih =>
      -- The target is checked before its identifier, but both must pass.
      have hstep : checkAll seen (w :: rest) = .ok () ↔
          w.target.isPlaced = true ∧ w.target.id ∉ seen
            ∧ checkAll (w.target.id :: seen) rest = .ok () := by
        by_cases hplaced : w.target.isPlaced = true <;> by_cases hseen : w.target.id ∈ seen <;>
          simp [checkAll, checkPlaced, hplaced, hseen, bind, Except.bind]
      rw [hstep, ih]
      rw [List.forall_mem_cons, List.forall_mem_cons, Legs.ids_cons, List.nodup_cons,
        Legs.mem_ids]
      simp only [List.mem_cons, not_or, not_exists, not_and]
      constructor
      · rintro ⟨hw, hseen, hrest, hdistinct, hfresh⟩
        exact ⟨⟨hw, hrest⟩, ⟨fun v hv => (hfresh v hv).1, hdistinct⟩, hseen,
          fun v hv => (hfresh v hv).2⟩
      · rintro ⟨⟨hw, hrest⟩, ⟨hfirst, hdistinct⟩, hseen, hfresh⟩
        exact ⟨hw, hseen, hrest, hdistinct, fun v hv => ⟨hfirst v hv, hfresh v hv⟩⟩

/-- A given sequence becomes a plan exactly when it is distinct and placed. -/
theorem ofWaypoints_eq_ok_iff {limits : Limits α} {waypoints : List (Waypoint α)}
    {plan : Plan α} :
    ofWaypoints limits waypoints = .ok plan ↔
      ((∀ w ∈ waypoints, w.target.isPlaced = true) ∧ (ids waypoints).Nodup)
        ∧ plan = ⟨0, limits, Legs.recompute limits waypoints⟩ := by
  have hcheck : checkAll [] waypoints = .ok () ↔
      (∀ w ∈ waypoints, w.target.isPlaced = true) ∧ (ids waypoints).Nodup := by
    rw [checkAll_eq_ok_iff]
    simp
  rw [← hcheck, ofWaypoints]
  cases checkAll [] waypoints with
  | ok _ => simp [bind, Except.bind, eq_comm]
  | error _ => simp [bind, Except.bind]

/-- A plan is sound before it is edited. -/
theorem Unedited.isSound {plan : Plan α} (h : Unedited plan) : plan.IsSound := by
  cases h with
  | empty limits => exact Sound.nil limits
  | ofWaypoints h =>
      obtain ⟨⟨hplaced, hdistinct⟩, rfl⟩ := ofWaypoints_eq_ok_iff.mp h
      exact Sound.of_recompute _ hdistinct hplaced

/-! ### Edits keep plans sound -/

variable {plan next : Plan α}

/-- Putting in a waypoint keeps a plan sound. -/
theorem IsSound.insert (h : plan.IsSound) {index : Nat} {w : Waypoint α}
    (hnext : plan.insert index w = .ok next) : next.IsSound := by
  rw [insert_eq] at hnext
  split at hnext
  · exact nomatch hnext
  · rename_i hindex
    split at hnext
    · exact nomatch hnext
    · rename_i hid
      split at hnext
      · rename_i hplaced
        obtain rfl := Except.ok.inj hnext
        have hgrown := Sound.refresh h (.insert (Nat.not_lt.mp hindex) hid) fun v hv => by
          rcases (List.mem_insertIdx (Nat.not_lt.mp hindex)).mp hv with rfl | hv
          · exact hplaced
          · exact h.placed v hv
        show Sound plan.limits (if _ then _ else _)
        split
        · exact hgrown.pinTail
        · exact hgrown
      · exact nomatch hnext

/-- Taking out a waypoint keeps a plan sound. -/
theorem IsSound.remove (h : plan.IsSound) {id : WaypointId}
    (hnext : plan.remove id = .ok next) : next.IsSound := by
  by_cases hid : id ∈ ids plan.waypoints
  · obtain ⟨i, w, hw, rfl⟩ := exists_of_mem_ids hid
    rw [remove_of_getElem? h.distinct hw] at hnext
    obtain rfl := Except.ok.inj hnext
    have hsub := List.eraseIdx_sublist plan.waypoints i
    exact Sound.of_recompute _ (h.distinct.sublist (hsub.map _)) fun v hv =>
      h.placed v (hsub.subset hv)
  · rw [remove_of_not_mem hid] at hnext
    exact nomatch hnext

/-- Moving a waypoint keeps a plan sound. -/
theorem IsSound.move (h : plan.IsSound) {id : WaypointId} {goal : Nat}
    (hnext : plan.move id goal = .ok next) : next.IsSound := by
  by_cases hid : id ∈ ids plan.waypoints
  · obtain ⟨i, w, hw, rfl⟩ := exists_of_mem_ids hid
    rw [move_of_getElem? h.distinct hw] at hnext
    split at hnext
    · exact nomatch hnext
    · rename_i hgoal
      obtain rfl := Except.ok.inj hnext
      refine Sound.refresh h (.move hw (Nat.not_le.mp hgoal)) fun v hv => ?_
      exact h.placed v ((Legs.relocate_perm _ _ (Nat.not_le.mp hgoal)).subset hv)
  · rw [move_of_not_mem hid] at hnext
    exact nomatch hnext

/-- Revising a waypoint keeps a plan sound. -/
theorem IsSound.update (h : plan.IsSound) {id : WaypointId} {revision : Revision α}
    (hnext : plan.update id revision = .ok next) : next.IsSound := by
  by_cases hid : id ∈ ids plan.waypoints
  · obtain ⟨i, w, hw, rfl⟩ := exists_of_mem_ids hid
    rw [update_of_getElem? h.distinct hw] at hnext
    split at hnext
    · rename_i hplaced
      obtain rfl := Except.ok.inj hnext
      refine Sound.refresh h (.edit hw rfl) fun v hv => ?_
      rcases List.mem_or_eq_of_mem_set hv with hv | rfl
      · exact h.placed v hv
      · exact hplaced
    · exact nomatch hnext
  · rw [update_of_not_mem hid] at hnext
    exact nomatch hnext

/-- Every accepted edit keeps a plan sound. -/
theorem IsSound.apply (h : plan.IsSound) {edit : Edit α} (hnext : plan.apply edit = .ok next) :
    next.IsSound := by
  cases edit with
  | append w => exact h.insert hnext
  | insert index w => exact h.insert hnext
  | remove id => exact h.remove hnext
  | move id goal => exact h.move hnext
  | update id revision => exact h.update hnext
  | clear =>
      obtain rfl := Except.ok.inj hnext
      exact Sound.nil plan.limits
  | withLimits limits =>
      obtain rfl := Except.ok.inj hnext
      exact Sound.of_recompute limits h.distinct h.placed

/-- Every plan that edits lead to is sound. -/
theorem Reached.isSound {n : Nat} (h : Reached n plan) : plan.IsSound := by
  induction h with
  | start h => exact h.isSound
  | edited _ _ hnext ih => exact ih.apply hnext

/-- Whatever edits are tried on a plan nobody has edited yet, in any order, refused ones
among them: no identifier comes twice, every waypoint is on the Earth at a finite altitude,
and a full computation of the legs under the limits of the plan would change nothing. -/
theorem run_keeps_current {start : Plan α} (hstart : Unedited start) (edits : List (Edit α)) :
    (ids (start.run edits).waypoints).Nodup
      ∧ (∀ w ∈ (start.run edits).waypoints,
          (-90.0 ≤ w.target.position.lat ∧ w.target.position.lat ≤ 90.0)
            ∧ (-180.0 ≤ w.target.position.lon ∧ w.target.position.lon ≤ 180.0)
            ∧ Scalar.isFinite w.target.altitude = true)
      ∧ Legs.recompute (start.run edits).limits (start.run edits).waypoints
          = (start.run edits).waypoints := by
  obtain ⟨_, _, hreached⟩ := (Reached.start hstart).run edits
  have hsound := hreached.isSound
  refine ⟨hsound.distinct, ?_, hsound.current⟩
  intro w hw
  exact (Target.isPlaced_iff.mp (hsound.placed w hw)).2

/-- The corner makes a plan. -/
theorem ofWaypoints_corner : ofWaypoints Limits.standard Legs.corner
    = .ok ⟨0, Limits.standard, Legs.recompute Limits.standard Legs.corner⟩ := by
  rw [ofWaypoints_eq_ok_iff]
  exact ⟨⟨by decide, by decide⟩, rfl⟩

/-- A waypoint is added to the corner twice, which is refused the second time. Then the end
of the corner is taken to its front, a time is lost, and the start is taken out. -/
def cornerEdits : List (Edit Float) :=
  let added := Legs.waypointOf 4 35.0018 51.0011 120.0 50.0
  [.append added, .append added, .move (Legs.idOf 3) 0,
    .update (Legs.idOf 2) ⟨none, none, none, none, some (0.0 / 0.0), none⟩,
    .remove (Legs.idOf 1)]

/-- What these edits leave of the corner is current. -/
theorem run_cornerEdits :
    ∃ start, ofWaypoints Limits.standard Legs.corner = .ok start
      ∧ ids (start.run cornerEdits).waypoints
          = [Legs.idOf 3, Legs.idOf 2, Legs.idOf 4]
      ∧ Legs.recompute (start.run cornerEdits).limits (start.run cornerEdits).waypoints
          = (start.run cornerEdits).waypoints :=
  ⟨_, ofWaypoints_corner, by decide,
    (run_keeps_current (.ofWaypoints ofWaypoints_corner) cornerEdits).2.2⟩

end Plan

end FlightPlan
