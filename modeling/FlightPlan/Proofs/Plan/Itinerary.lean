import FlightPlan.Proofs.Plan.Sound
import Mathlib.Data.List.InsertIdx

/-!
# `FlightPlan.Proofs.Plan.Itinerary`: edits without legs

An `Itinerary` is what remains of a plan when its legs are forgotten: version,
limits and targets. `Itinerary.apply` edits it with nothing but list operations.
It looks targets up by identifier, takes them out by filtering, and puts them in
between the front and the rest of the list. An update overwrites a target part
by part (`Itinerary.overwritten`), and what may stand in an itinerary is said in
degrees (`Itinerary.Admits`). Nothing of this is shared with the edits of a plan:
`overwritten_eq_revise` and `admits_iff` are where the two meet.

An itinerary never computes a leg. The one place where the Earth comes in is
`arriving`: a target with an automatic heading that is put in at the end keeps
the heading it arrives with.

`IsSound.itinerary_apply` is the step of the simulation: for a sound plan, an
edit of the plan and the same edit of its itinerary are refused for the same
reason, or lead to a plan and to its itinerary. So nothing that the plan does
about legs reaches a target, and the legs of waypoints that come in decide
nothing.

* `IsSound.eq_of_itinerary_eq` goes the other way: a sound plan is told by its
  itinerary, so that what edits do to plans can be proved on itineraries.
* `Reached.refines_itinerary` states the step for every plan that edits lead to,
  together with what its version counts.
* `IsSound.itinerary_run` carries the step through a run of edits.
-/

set_option autoImplicit false

namespace FlightPlan

variable {α : Type}

/-- A plan without its legs. -/
structure Itinerary (α : Type) where
  version : UInt64
  limits : Limits α
  targets : List (Target α)

/-- What remains of a plan when its legs are forgotten. -/
def Plan.itinerary (plan : Plan α) : Itinerary α :=
  ⟨plan.version, plan.limits, plan.waypoints.map Waypoint.target⟩

namespace Itinerary

/-! ### Edits of targets -/

/-- The identifiers of an itinerary. -/
def ids (itinerary : Itinerary α) : List WaypointId :=
  itinerary.targets.map Target.id

/-- The target with an identifier. -/
def get? (itinerary : Itinerary α) (id : WaypointId) : Option (Target α) :=
  itinerary.targets.find? (·.id == id)

/-- The targets but those with one identifier, in the order they had. -/
def without (id : WaypointId) (targets : List (Target α)) : List (Target α) :=
  targets.filter (·.id != id)

/-- The targets with one more in front of `index`. -/
def spliced (targets : List (Target α)) (index : Nat) (target : Target α) : List (Target α) :=
  targets.take index ++ target :: targets.drop index

/-- The targets with the one of an identifier replaced. -/
def replaced (id : WaypointId) (target : Target α) (targets : List (Target α)) :
    List (Target α) :=
  targets.map fun other => if other.id = id then target else other

/-- A part of a target after an update: the new value where there is one, and the old one
where there is none. -/
def written {β : Type} (old : β) : Option β → β
  | none => old
  | some new => new

/-- A target after an update. Each part is overwritten on its own, and the identifier is no
part that an update has a value for. -/
def overwritten (target : Target α) (r : Revision α) : Target α where
  id := target.id
  name := written target.name r.name
  position := ⟨written target.position.lat r.lat, written target.position.lon r.lon⟩
  altitude := written target.altitude r.altitude
  time := written target.time r.time
  headingMode := written target.headingMode r.headingMode

/-- The itinerary after one more edit. -/
def advance (itinerary : Itinerary α) (targets : List (Target α)) : Itinerary α :=
  { itinerary with version := itinerary.version + 1, targets }

section
variable [Scalar α]

/-- A target may stand in an itinerary: its place is one on the globe, and how high it is above
it is a finite number. -/
def Admits (target : Target α) : Prop :=
  (Scalar.isFinite target.position.lat = true ∧ Scalar.isFinite target.position.lon = true)
    ∧ (-90.0 ≤ target.position.lat ∧ target.position.lat ≤ 90.0)
    ∧ (-180.0 ≤ target.position.lon ∧ target.position.lon ≤ 180.0)
    ∧ Scalar.isFinite target.altitude = true

/-- It can be decided whether a target may stand in an itinerary. -/
instance (target : Target α) : Decidable (Admits target) :=
  inferInstanceAs (Decidable (_ ∧ _))

/-- An itinerary admits what can be flown to. -/
theorem admits_iff {target : Target α} : Admits target ↔ target.isPlaced = true :=
  Target.isPlaced_iff.symm

end

/-- Overwriting with an option is taking its value, or else the old one. -/
theorem written_eq_getD {β : Type} (old : β) (new : Option β) :
    written old new = new.getD old := by
  cases new with
  | none => rfl
  | some value => rfl

/-- A target overwritten part by part is the target revised. -/
theorem overwritten_eq_revise (target : Target α) (r : Revision α) :
    overwritten target r = target.revise r := by
  simp only [overwritten, Target.revise, written_eq_getD]

variable [Scalar α] [Geodesy α]

/-- A target put in at the end. An automatic heading is fixed to the one from the target
that was the last, if there was one. -/
def arriving (targets : List (Target α)) (target : Target α) : Target α :=
  match targets.getLast?, target.headingMode with
  | some last, .auto =>
    { target with headingMode := .manual (Heading.toward last.position target.position) }
  | _, _ => target

/-- A target put in before `index`. -/
def insert (itinerary : Itinerary α) (index : Nat) (target : Target α) :
    Except (EditError α) (Itinerary α) :=
  let targets := itinerary.targets
  if targets.length < index then .error (.indexOutOfRange index targets.length)
  else if target.id ∈ itinerary.ids then .error (.duplicateWaypoint target.id)
  else if Admits target then
    .ok (itinerary.advance
      (if index = targets.length then targets ++ [arriving targets target]
      else spliced targets index target))
  else .error (.invalidPosition target)

/-- The itinerary after an edit, or why the edit was refused. -/
def apply (itinerary : Itinerary α) : Edit α → Except (EditError α) (Itinerary α)
  | .append waypoint => itinerary.insert itinerary.targets.length waypoint.target
  | .insert index waypoint => itinerary.insert index waypoint.target
  | .remove id =>
    match itinerary.get? id with
    | none => .error (.unknownWaypoint id)
    | some _ => .ok (itinerary.advance (without id itinerary.targets))
  | .move id goal =>
    match itinerary.get? id with
    | none => .error (.unknownWaypoint id)
    | some target =>
      if itinerary.targets.length ≤ goal then
        .error (.indexOutOfRange goal itinerary.targets.length)
      else .ok (itinerary.advance (spliced (without id itinerary.targets) goal target))
  | .update id revision =>
    match itinerary.get? id with
    | none => .error (.unknownWaypoint id)
    | some target =>
      let target := overwritten target revision
      if Admits target then .ok (itinerary.advance (replaced id target itinerary.targets))
      else .error (.invalidPosition target)
  | .clear => .ok (itinerary.advance [])
  | .withLimits limits => .ok { itinerary.advance itinerary.targets with limits }

/-- The itinerary after an edit was tried. -/
def attempt (itinerary : Itinerary α) (edit : Edit α) : Itinerary α :=
  match itinerary.apply edit with
  | .ok next => next
  | .error _ => itinerary

/-- The itinerary after edits were tried, one after the other. -/
def run (itinerary : Itinerary α) (edits : List (Edit α)) : Itinerary α :=
  edits.foldl attempt itinerary

omit [Scalar α] [Geodesy α] in
/-- Advancing counts one edit. -/
theorem version_of_advance {itinerary next : Itinerary α} {targets : List (Target α)}
    (h : (Except.ok (itinerary.advance targets) : Except (EditError α) _) = .ok next) :
    next.version = itinerary.version + 1 := by
  obtain rfl := Except.ok.inj h
  rfl

/-- Every accepted edit counts. -/
theorem version_of_apply {itinerary next : Itinerary α} {edit : Edit α}
    (h : itinerary.apply edit = .ok next) : next.version = itinerary.version + 1 := by
  have hinsert {index : Nat} {target : Target α} (h : itinerary.insert index target = .ok next) :
      next.version = itinerary.version + 1 := by
    unfold insert at h
    simp only at h
    split at h
    · exact nomatch h
    · split at h
      · exact nomatch h
      · split at h
        · exact version_of_advance h
        · exact nomatch h
  cases edit with
  | append waypoint => exact hinsert h
  | insert index waypoint => exact hinsert h
  | remove id =>
      simp only [apply] at h
      split at h
      · exact nomatch h
      · exact version_of_advance h
  | move id goal =>
      simp only [apply] at h
      split at h
      · exact nomatch h
      · split at h
        · exact nomatch h
        · exact version_of_advance h
  | update id revision =>
      simp only [apply] at h
      split at h
      · exact nomatch h
      · split at h
        · exact version_of_advance h
        · exact nomatch h
  | clear => exact version_of_advance h
  | withLimits limits =>
      obtain rfl := Except.ok.inj h
      rfl

end Itinerary

/-! ### Lists of distinct targets -/

/-- The target of the waypoint at an index is the target at that index. -/
theorem getElem?_map_target {waypoints : List (Waypoint α)} {i : Nat} {w : Waypoint α}
    (hw : waypoints[i]? = some w) : (waypoints.map Waypoint.target)[i]? = some w.target := by
  rw [List.getElem?_map, hw]
  rfl

section
variable {targets : List (Target α)} {i : Nat} {target : Target α}

/-- Putting in at an index is putting in between what is before it and the rest. -/
theorem insertIdx_eq_spliced (hi : i ≤ targets.length) (target : Target α) :
    targets.insertIdx i target = Itinerary.spliced targets i target := by
  induction targets generalizing i with
  | nil =>
      obtain rfl : i = 0 := Nat.le_zero.mp hi
      rfl
  | cons first rest ih =>
      cases i with
      | zero => rfl
      | succ i =>
          rw [List.insertIdx_succ_cons, ih (Nat.le_of_succ_le_succ hi)]
          rfl

/-- Where identifiers are distinct, taking out the one is keeping the others. -/
theorem eraseIdx_eq_without (hdistinct : (targets.map Target.id).Nodup)
    (ht : targets[i]? = some target) :
    targets.eraseIdx i = Itinerary.without target.id targets := by
  induction targets generalizing i with
  | nil => exact nomatch ht
  | cons first rest ih =>
      rw [List.map_cons, List.nodup_cons] at hdistinct
      obtain ⟨hfirst, hrest⟩ := hdistinct
      cases i with
      | zero =>
          obtain rfl : first = target := by simpa using ht
          have hkept : ∀ other ∈ rest, (other.id != first.id) = true := by
            intro other hother
            have hne : other.id ≠ first.id := fun hid =>
              hfirst (hid ▸ List.mem_map_of_mem hother)
            simpa using hne
          rw [Itinerary.without, List.filter_cons_of_neg (by simp), List.filter_eq_self.mpr hkept]
          rfl
      | succ i =>
          have ht : rest[i]? = some target := by simpa using ht
          have hne : first.id ≠ target.id := fun hid =>
            hfirst (hid ▸ List.mem_map_of_mem (List.mem_of_getElem? ht))
          rw [List.eraseIdx_cons_succ, ih hrest ht, Itinerary.without, Itinerary.without,
            List.filter_cons_of_pos (by simpa using hne)]

/-- Where identifiers are distinct, setting an index is replacing by identifier. -/
theorem set_eq_replaced (hdistinct : (targets.map Target.id).Nodup)
    (ht : targets[i]? = some target) (replacement : Target α) :
    targets.set i replacement = Itinerary.replaced target.id replacement targets := by
  induction targets generalizing i with
  | nil => exact nomatch ht
  | cons first rest ih =>
      rw [List.map_cons, List.nodup_cons] at hdistinct
      obtain ⟨hfirst, hrest⟩ := hdistinct
      cases i with
      | zero =>
          obtain rfl : first = target := by simpa using ht
          have hkept : Itinerary.replaced first.id replacement rest = rest := by
            refine (List.map_congr_left ?_).trans (List.map_id rest)
            intro other hother
            have hne : other.id ≠ first.id := fun hid =>
              hfirst (hid ▸ List.mem_map_of_mem hother)
            exact if_neg hne
          rw [List.set_cons_zero, Itinerary.replaced, List.map_cons, if_pos rfl,
            ← Itinerary.replaced, hkept]
      | succ i =>
          have ht : rest[i]? = some target := by simpa using ht
          have hne : first.id ≠ target.id := fun hid =>
            hfirst (hid ▸ List.mem_map_of_mem (List.mem_of_getElem? ht))
          rw [List.set_cons_succ, ih hrest ht, Itinerary.replaced, Itinerary.replaced,
            List.map_cons, if_neg hne]

end

variable [Scalar α] [Geodesy α]

/-! ### The tail -/

/-- A waypoint that comes in behind another and is pinned keeps the heading it arrives
with. -/
theorem Legs.target_pinned_computed (limits : Limits α) (last : Target α) (w : Waypoint α) :
    (pinned (Placed.computed limits ⟨some last, w, none⟩)).target
      = match w.target.headingMode with
        | .auto => { w.target with
            headingMode := .manual (Heading.toward last.position w.target.position) }
        | .manual _ => w.target := by
  unfold pinned
  rw [Placed.target_computed]
  cases hmode : w.target.headingMode with
  | auto => rfl
  | manual degrees => rfl

/-- Computing legs and pinning the tail changes the target that came in last as
`Itinerary.arriving` does, and no other. -/
theorem Legs.map_target_pinTail_recompute (limits : Limits α) (waypoints : List (Waypoint α))
    (w : Waypoint α) :
    (pinTail (recompute limits (waypoints ++ [w]))).map Waypoint.target
      = waypoints.map Waypoint.target
          ++ [Itinerary.arriving (waypoints.map Waypoint.target) w.target] := by
  rcases List.eq_nil_or_concat' waypoints with rfl | ⟨front, last, hlast⟩
  · rfl
  · have hlength : waypoints.length = front.length + 1 := by rw [hlast, List.length_append]; rfl
    have hbefore : before (waypoints ++ [w]) waypoints.length = some last.target := by
      rw [hlength, before, hlast, List.append_assoc, List.getElem?_append_right (Nat.le_refl _),
        Nat.sub_self]
      rfl
    have hbehind : behind (waypoints ++ [w]) waypoints.length = none := by
      rw [behind_eq_none, List.length_append]
      exact Nat.le_refl _
    have harriving : Itinerary.arriving (waypoints.map Waypoint.target) w.target
        = (pinned (Placed.computed limits ⟨some last.target, w, none⟩)).target := by
      rw [target_pinned_computed, Itinerary.arriving, hlast, List.map_append,
        List.map_singleton, List.getLast?_concat]
      cases w.target.headingMode <;> rfl
    refine List.ext_getElem? ?_
    intro i
    rw [List.getElem?_map, getElem?_pinTail (by simp [hlength]), length_recompute,
      getElem?_recompute, getElem?_placed]
    rcases Nat.lt_trichotomy i waypoints.length with hi | rfl | hi
    · have hne : ¬ i + 1 = (waypoints ++ [w]).length := by
        rw [List.length_append, List.length_singleton]
        omega
      rw [List.getElem?_append_left hi, List.getElem?_append_left (by rwa [List.length_map]),
        List.getElem?_map]
      simp only [if_neg hne]
      cases waypoints[i]? <;> rfl
    · rw [harriving, List.getElem?_concat_length]
      simp [hbefore, hbehind]
    · rw [List.getElem?_eq_none (by simp; omega), List.getElem?_eq_none (by simp; omega)]
      rfl

namespace Plan

/-! ### The step of the simulation -/

section
variable {plan : Plan α} {id : WaypointId}

omit [Scalar α] [Geodesy α] in
/-- An itinerary has the identifiers of its plan, in their order. -/
@[simp] theorem ids_itinerary (plan : Plan α) :
    plan.itinerary.ids = Legs.ids plan.waypoints :=
  List.map_map

omit [Scalar α] [Geodesy α] in
/-- An itinerary has a target for each waypoint of its plan. -/
@[simp] theorem length_targets_itinerary (plan : Plan α) :
    plan.itinerary.targets.length = plan.waypoints.length :=
  List.length_map _

omit [Scalar α] [Geodesy α] in
/-- The target of a waypoint is found under its identifier. -/
theorem get?_itinerary_of_getElem? (hdistinct : (Legs.ids plan.waypoints).Nodup) {i : Nat}
    {w : Waypoint α} (hw : plan.waypoints[i]? = some w) :
    plan.itinerary.get? w.target.id = some w.target := by
  have hfound : plan.itinerary.get? w.target.id
      = (plan.get? w.target.id).map Waypoint.target := List.find?_map
  rw [hfound, get?_of_getElem? hdistinct hw]
  rfl

omit [Scalar α] [Geodesy α] in
/-- Under an identifier that is not in the plan no target is found. -/
theorem get?_itinerary_of_not_mem (h : id ∉ Legs.ids plan.waypoints) :
    plan.itinerary.get? id = none := by
  rw [Itinerary.get?, List.find?_eq_none]
  intro target htarget hid
  rw [← ids_itinerary] at h
  exact h (List.mem_map.mpr ⟨target, htarget, by simpa using hid⟩)

omit [Scalar α] [Geodesy α] in
/-- The waypoints of an edit decide the itinerary by their targets. -/
theorem itinerary_advance (plan : Plan α) {waypoints : List (Waypoint α)}
    {targets : List (Target α)} (h : waypoints.map Waypoint.target = targets) :
    (plan.advance waypoints).itinerary = plan.itinerary.advance targets := by
  rw [← h]
  rfl

/-- Putting in a waypoint puts its target into the itinerary, or is refused for the same
reason. -/
theorem IsSound.itinerary_insert (h : plan.IsSound) (index : Nat) (w : Waypoint α) :
    (plan.insert index w).map itinerary = plan.itinerary.insert index w.target := by
  rw [insert_eq, Itinerary.insert, length_targets_itinerary, ids_itinerary]
  simp only
  -- Both sides check the same three conditions in the same order.
  by_cases hindex : plan.waypoints.length < index
  · rw [if_pos hindex, if_pos hindex]
    rfl
  · rw [if_neg hindex, if_neg hindex]
    by_cases hid : w.target.id ∈ Legs.ids plan.waypoints
    · rw [if_pos hid, if_pos hid]
      rfl
    · rw [if_neg hid, if_neg hid]
      by_cases hplaced : w.target.isPlaced = true
      · rw [if_pos hplaced, if_pos (Itinerary.admits_iff.mpr hplaced)]
        refine congrArg Except.ok (itinerary_advance plan ?_)
        by_cases htail : index = plan.waypoints.length
        · -- The tail is pinned along the leg that a full computation gives it.
          rw [if_pos htail, if_pos htail,
            Sound.refresh_eq_recompute h (.insert (Nat.not_lt.mp hindex) hid), htail,
            List.insertIdx_length_self]
          exact Legs.map_target_pinTail_recompute plan.limits plan.waypoints w
        · rw [if_neg htail, if_neg htail, Legs.map_target_refresh, List.map_insertIdx]
          exact insertIdx_eq_spliced (by simpa using hindex) w.target
      · rw [if_neg hplaced, if_neg fun hadmitted => hplaced (Itinerary.admits_iff.mp hadmitted)]
        rfl

/-- The identifiers of the targets are distinct too. -/
theorem IsSound.distinct_targets (h : plan.IsSound) :
    ((plan.waypoints.map Waypoint.target).map Target.id).Nodup := by
  rw [List.map_map]
  exact h.distinct

/-- Taking out a waypoint takes its target out of the itinerary, or is refused for the same
reason. -/
theorem IsSound.itinerary_remove (h : plan.IsSound) (id : WaypointId) :
    (plan.remove id).map itinerary = plan.itinerary.apply (.remove id) := by
  rw [Itinerary.apply]
  by_cases hid : id ∈ Legs.ids plan.waypoints
  · obtain ⟨i, w, hw, rfl⟩ := exists_of_mem_ids hid
    have ht := getElem?_map_target hw
    rw [remove_of_getElem? h.distinct hw, get?_itinerary_of_getElem? h.distinct hw]
    refine congrArg Except.ok (itinerary_advance plan ?_)
    rw [Legs.map_target_recompute, ← List.eraseIdx_map]
    exact eraseIdx_eq_without h.distinct_targets ht
  · rw [remove_of_not_mem hid, get?_itinerary_of_not_mem hid]
    rfl

/-- Moving a waypoint moves its target in the itinerary, or is refused for the same reason. -/
theorem IsSound.itinerary_move (h : plan.IsSound) (id : WaypointId) (goal : Nat) :
    (plan.move id goal).map itinerary = plan.itinerary.apply (.move id goal) := by
  rw [Itinerary.apply]
  by_cases hid : id ∈ Legs.ids plan.waypoints
  · obtain ⟨i, w, hw, rfl⟩ := exists_of_mem_ids hid
    have ht := getElem?_map_target hw
    rw [move_of_getElem? h.distinct hw, get?_itinerary_of_getElem? h.distinct hw]
    simp only [length_targets_itinerary]
    by_cases hgoal : plan.waypoints.length ≤ goal
    · rw [if_pos hgoal, if_pos hgoal]
      rfl
    · rw [if_neg hgoal, if_neg hgoal]
      refine congrArg Except.ok (itinerary_advance plan ?_)
      have herased : goal ≤ ((plan.waypoints.map Waypoint.target).eraseIdx i).length := by
        have hi := (List.getElem?_eq_some_iff.mp ht).1
        rw [List.length_eraseIdx_of_lt hi, List.length_map]
        omega
      rw [Legs.map_target_refresh, relocate, hw]
      simp only
      rw [List.map_insertIdx, ← List.eraseIdx_map, insertIdx_eq_spliced herased,
        eraseIdx_eq_without h.distinct_targets ht]
      rfl
  · rw [move_of_not_mem hid, get?_itinerary_of_not_mem hid]
    rfl

/-- Revising a waypoint overwrites its target in the itinerary, or is refused for the same
reason. -/
theorem IsSound.itinerary_update (h : plan.IsSound) (id : WaypointId)
    (revision : Revision α) :
    (plan.update id revision).map itinerary = plan.itinerary.apply (.update id revision) := by
  rw [Itinerary.apply]
  by_cases hid : id ∈ Legs.ids plan.waypoints
  · obtain ⟨i, w, hw, rfl⟩ := exists_of_mem_ids hid
    have ht := getElem?_map_target hw
    rw [update_of_getElem? h.distinct hw, get?_itinerary_of_getElem? h.distinct hw]
    simp only [Itinerary.overwritten_eq_revise, Itinerary.admits_iff]
    by_cases hplaced : (w.target.revise revision).isPlaced = true
    · rw [if_pos hplaced, if_pos hplaced]
      refine congrArg Except.ok (itinerary_advance plan ?_)
      rw [Legs.map_target_refresh, List.map_set]
      exact set_eq_replaced h.distinct_targets ht _
    · rw [if_neg hplaced, if_neg hplaced]
      rfl
  · rw [update_of_not_mem hid, get?_itinerary_of_not_mem hid]
    rfl

/-- An edit of a sound plan and the same edit of its itinerary are refused alike, or lead to
a plan and to its itinerary. -/
theorem IsSound.itinerary_apply (h : plan.IsSound) (edit : Edit α) :
    (plan.apply edit).map itinerary = plan.itinerary.apply edit := by
  cases edit with
  | append w =>
      rw [Itinerary.apply, length_targets_itinerary]
      exact h.itinerary_insert plan.waypoints.length w
  | insert index w => exact h.itinerary_insert index w
  | remove id => exact h.itinerary_remove id
  | move id goal => exact h.itinerary_move id goal
  | update id revision => exact h.itinerary_update id revision
  | clear => rfl
  | withLimits limits =>
      have htargets := itinerary_advance plan (Legs.map_target_recompute limits plan.waypoints)
      exact congrArg (fun next : Itinerary α => Except.ok { next with limits }) htargets

/-! ### Plans from itineraries -/

/-- A sound plan follows from its itinerary: its legs are those that a full computation gives
the targets. -/
theorem IsSound.eq_of_itinerary_eq {first second : Plan α} (hfirst : first.IsSound)
    (hsecond : second.IsSound) (h : first.itinerary = second.itinerary) : first = second := by
  obtain ⟨hversion, hlimits, htargets⟩ := Itinerary.mk.inj h
  have hwaypoints : first.waypoints = second.waypoints :=
    calc
      first.waypoints = Legs.recompute first.limits first.waypoints := hfirst.current.symm
      _ = Legs.recompute second.limits second.waypoints := by
        rw [hlimits]
        exact Legs.recompute_congr second.limits htargets
      _ = second.waypoints := hsecond.current
  show Plan.mk first.version first.limits first.waypoints = second
  rw [hversion, hlimits, hwaypoints]

/-- An accepted edit of a sound plan is one of its itinerary. -/
theorem IsSound.itinerary_of_apply (h : plan.IsSound) {edit : Edit α} {next : Plan α}
    (hnext : plan.apply edit = .ok next) : plan.itinerary.apply edit = .ok next.itinerary := by
  rw [← h.itinerary_apply edit, hnext]
  rfl

/-- An accepted edit of the itinerary of a sound plan is one of the plan. -/
theorem IsSound.exists_of_itinerary_apply (h : plan.IsSound) {edit : Edit α}
    {after : Itinerary α} (hafter : plan.itinerary.apply edit = .ok after) :
    ∃ next, plan.apply edit = .ok next ∧ next.itinerary = after := by
  rw [← h.itinerary_apply edit] at hafter
  cases hnext : plan.apply edit with
  | ok next =>
      rw [hnext] at hafter
      exact ⟨next, rfl, Except.ok.inj hafter⟩
  | error _ =>
      rw [hnext] at hafter
      exact nomatch hafter

/-- An edit leads to the sound plan whose itinerary it leads to. -/
theorem IsSound.apply_eq_ok (h : plan.IsSound) {edit : Edit α} {next : Plan α}
    (hsound : next.IsSound) (hnext : plan.itinerary.apply edit = .ok next.itinerary) :
    plan.apply edit = .ok next := by
  obtain ⟨found, hfound, hitinerary⟩ := h.exists_of_itinerary_apply hnext
  rw [hfound, (h.apply hfound).eq_of_itinerary_eq hsound hitinerary]

/-! ### Runs -/

/-- Every accepted edit of a sound plan counts. -/
theorem IsSound.version_of_apply (h : plan.IsSound) {edit : Edit α} {next : Plan α}
    (hnext : plan.apply edit = .ok next) : next.version = plan.version + 1 := by
  have hstep := h.itinerary_apply edit
  rw [hnext] at hstep
  exact Itinerary.version_of_apply hstep.symm

/-- The version counts the accepted edits, as far as its bits go. -/
theorem Reached.version_eq {n : Nat} (h : Reached n plan) : plan.version = UInt64.ofNat n := by
  induction h with
  | start h =>
      cases h with
      | empty limits => rfl
      | ofWaypoints h =>
          obtain ⟨-, rfl⟩ := ofWaypoints_eq_ok_iff.mp h
          rfl
  | edited h edit hnext ih =>
      rw [h.isSound.version_of_apply hnext, ih, UInt64.ofNat_add]
      rfl

/-- A sound plan and its itinerary go through any edits together. -/
theorem IsSound.itinerary_run (h : plan.IsSound) (edits : List (Edit α)) :
    (plan.run edits).itinerary = plan.itinerary.run edits := by
  induction edits generalizing plan with
  | nil => rfl
  | cons edit rest ih =>
      have hstep := h.itinerary_apply edit
      rw [run, Itinerary.run, List.foldl_cons, List.foldl_cons, attempt, Itinerary.attempt,
        ← hstep]
      cases hnext : plan.apply edit with
      | ok next => exact ih (h.apply hnext)
      | error _ => exact ih h

/-- The version of a plan that fewer than `2 ^ 64` accepted edits lead to is their number,
and every further edit of the plan does to it what it does to its itinerary. -/
theorem Reached.refines_itinerary {n : Nat} (h : Reached n plan) (hn : n < UInt64.size) :
    plan.version.toNat = n
      ∧ ∀ edit : Edit α, (plan.apply edit).map itinerary = plan.itinerary.apply edit := by
  refine ⟨?_, h.isSound.itinerary_apply⟩
  rw [h.version_eq, UInt64.toNat_ofNat']
  exact Nat.mod_eq_of_lt hn

/-- A waypoint comes in behind the corner. The targets of the corner stay, and its own keeps
the heading it arrives with. When the middle of the corner is given a name and an altitude
instead, it keeps its place, its time and its heading mode, and the others keep all they have. -/
theorem refines_append_corner :
    ∃ start, ofWaypoints Limits.standard Legs.corner = .ok start ∧ start.version.toNat = 0
      ∧ (start.append (Legs.waypointOf 4 35.0018 51.0011 120.0 50.0)).map itinerary
          = .ok ⟨1, Limits.standard, Legs.corner.map Waypoint.target
              ++ [⟨Legs.idOf 4, "", ⟨35.0018, 51.0011⟩, 120.0, 50.0,
                  .manual (Heading.toward ⟨35.0009, 51.0011⟩ ⟨35.0018, 51.0011⟩)⟩]⟩
      ∧ (start.update (Legs.idOf 2)
            ⟨some "bend", none, none, some 110.0, none, none⟩).map itinerary
          = .ok ⟨1, Limits.standard,
              [⟨Legs.idOf 1, "", ⟨35.0, 51.0⟩, 100.0, 0.0, .auto⟩,
                ⟨Legs.idOf 2, "bend", ⟨35.0009, 51.0⟩, 110.0, 10.0, .auto⟩,
                ⟨Legs.idOf 3, "", ⟨35.0009, 51.0011⟩, 120.0, 40.0, .auto⟩]⟩ := by
  obtain ⟨hversion, hstep⟩ :=
    Reached.refines_itinerary (.start (.ofWaypoints ofWaypoints_corner))
      (show 0 < UInt64.size by decide)
  have hupdate := hstep
    (.update (Legs.idOf 2) ⟨some "bend", none, none, some 110.0, none, none⟩)
  exact ⟨_, ofWaypoints_corner, hversion, (hstep (.append _)).trans rfl, hupdate.trans rfl⟩

end

end Plan

end FlightPlan
