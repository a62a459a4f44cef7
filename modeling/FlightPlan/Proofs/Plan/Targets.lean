import FlightPlan.Proofs.Plan.Itinerary

/-!
# `FlightPlan.Proofs.Plan.Targets`: targets taken out, put in and replaced

The edits of an itinerary come down to three operations on lists of targets, which know a target
by its identifier: `without` takes it out, `spliced` puts one in and `replaced` puts another in
its place. How two edits in a row compare is a question about two of these in a row, and about
what a look-up finds after one.

* `get?_of_mem`, `find?_without`, `find?_spliced`, `find?_spliced_without` and `find?_replaced`:
  look-ups.
* `without_spliced`, `spliced_without`, `replaced_replaced` and `replaced_self`: an operation
  and the one that takes it back.
* `length_replaced`, `without_replaced`, `spliced_replaced` and `replaced_comm`: replacing a
  target before another operation or after it.
* `apply_remove_of_get?`, `apply_move_of_get?` and `apply_update_of_get?`: the edits of one target
  as these operations.
-/

set_option autoImplicit false

namespace FlightPlan

/-- A revision keeps the identifier. -/
@[simp] theorem Target.id_revise {α : Type} (target : Target α) (r : Revision α) :
    (target.revise r).id = target.id := rfl

namespace Itinerary

variable {α : Type} {itinerary : Itinerary α} {id other : WaypointId}
  {targets : List (Target α)} {target : Target α}

/-! ### Look-ups -/

/-- The target with an identifier has it. -/
theorem id_of_get? (h : itinerary.get? id = some target) : target.id = id := by
  simpa using List.find?_some h

/-- In an itinerary of distinct identifiers a target is found by its own. -/
theorem get?_of_mem (hdistinct : itinerary.ids.Nodup)
    (h : target ∈ itinerary.targets) : itinerary.get? target.id = some target := by
  cases hfound : itinerary.get? target.id with
  | none =>
      have hnot := List.find?_eq_none.mp hfound target h
      simp at hnot
  | some found =>
      have hmem : found ∈ itinerary.targets := List.mem_of_find?_eq_some hfound
      rw [List.inj_on_of_nodup_map hdistinct hmem h (id_of_get? hfound)]

/-- A look-up passes over what was taken out under another identifier. -/
theorem find?_without (hne : other ≠ id) :
    (without id targets).find? (·.id == other) = targets.find? (·.id == other) := by
  rw [without, List.find?_filter]
  congr 1
  funext found
  by_cases hfound : found.id = other
  · simp [hfound, hne]
  · simp [hfound]

/-- What was taken out is not found. -/
theorem find?_without_self : (without id targets).find? (·.id == id) = none := by
  rw [without, List.find?_filter, List.find?_eq_none]
  intro found _
  simp

/-- A look-up passes over a target of another identifier. -/
theorem find?_spliced (hne : target.id ≠ other) (i : Nat) :
    (spliced targets i target).find? (·.id == other) = targets.find? (·.id == other) := by
  rw [spliced, List.find?_append, List.find?_cons_of_neg (by simpa using hne),
    ← List.find?_append, List.take_append_drop]

/-- A target that is put in where it was taken out is found. -/
theorem find?_spliced_without (i : Nat) :
    (spliced (without target.id targets) i target).find? (·.id == target.id) = some target := by
  have hfront : ((without target.id targets).take i).find? (·.id == target.id) = none := by
    rw [List.find?_eq_none]
    intro found hfound
    exact List.find?_eq_none.mp find?_without_self found (List.mem_of_mem_take hfound)
  rw [spliced, List.find?_append, hfront, List.find?_cons_of_pos (by simp)]
  rfl

/-- A replacement keeps identifiers. -/
theorem id_replacement (hid : target.id = id) (found : Target α) :
    (if found.id = id then target else found).id = found.id := by
  split
  · rw [hid, ‹found.id = id›]
  · rfl

/-- A look-up finds what it found before, or what that was replaced by. -/
theorem find?_replaced (hid : target.id = id) :
    (replaced id target targets).find? (·.id == other)
      = (targets.find? (·.id == other)).map
          fun found => if found.id = id then target else found := by
  rw [replaced, List.find?_map]
  congr 2
  funext found
  show ((if found.id = id then target else found).id == other) = (found.id == other)
  rw [id_replacement hid]

/-! ### Operations taken back -/

/-- Taking out what was put in leaves what is without it anyway. -/
theorem without_spliced (i : Nat) :
    without target.id (spliced targets i target) = without target.id targets := by
  rw [without, spliced, List.filter_append, List.filter_cons_of_neg (by simp),
    ← List.filter_append, List.take_append_drop, without]

/-- Taking out twice is taking out once. -/
theorem without_without : without id (without id targets) = without id targets := by
  rw [without, without, List.filter_filter]
  congr 1
  funext found
  exact Bool.and_self _

/-- Nothing is taken out under an identifier that does not occur. -/
theorem without_eq_self (h : id ∉ targets.map Target.id) : without id targets = targets := by
  rw [without, List.filter_eq_self]
  intro found hfound
  have hne : found.id ≠ id := fun hid => h (hid ▸ List.mem_map_of_mem hfound)
  simpa using hne

/-- One more target is put in. -/
@[simp] theorem length_spliced (i : Nat) :
    (spliced targets i target).length = targets.length + 1 := by
  simp only [spliced, List.length_append, List.length_cons, List.length_take, List.length_drop]
  omega

/-- One of several distinct targets is taken out. -/
theorem length_without (hdistinct : (targets.map Target.id).Nodup) {i : Nat}
    (ht : targets[i]? = some target) :
    (without target.id targets).length + 1 = targets.length := by
  have hi := (List.getElem?_eq_some_iff.mp ht).1
  rw [← eraseIdx_eq_without hdistinct ht, List.length_eraseIdx_of_lt hi]
  omega

/-- A target that was taken out is put back where it was. -/
theorem spliced_without (hdistinct : (targets.map Target.id).Nodup) {i : Nat}
    (ht : targets[i]? = some target) :
    spliced (without target.id targets) i target = targets := by
  have hlength := length_without hdistinct ht
  obtain ⟨hi, rfl⟩ := List.getElem?_eq_some_iff.mp ht
  rw [← insertIdx_eq_spliced (by omega), ← eraseIdx_eq_without hdistinct ht,
    List.insertIdx_eraseIdx_getElem hi]

/-- Only the last replacement counts. -/
theorem replaced_replaced {replacement : Target α} (hid : target.id = id) :
    replaced id replacement (replaced id target targets) = replaced id replacement targets := by
  rw [replaced, replaced, replaced, List.map_map]
  refine List.map_congr_left fun found _ => ?_
  show (if (if found.id = id then target else found).id = id then replacement
    else if found.id = id then target else found) = if found.id = id then replacement else found
  by_cases hfound : found.id = id
  · simp [hfound, hid]
  · simp [hfound]

/-- A target in its own place changes nothing. -/
theorem replaced_self (hdistinct : (targets.map Target.id).Nodup) (ht : target ∈ targets) :
    replaced target.id target targets = targets := by
  obtain ⟨i, hi⟩ := List.getElem?_of_mem ht
  rw [← set_eq_replaced hdistinct hi]
  obtain ⟨hlt, rfl⟩ := List.getElem?_eq_some_iff.mp hi
  exact List.set_getElem_self hlt

/-! ### Replacing before or after -/

/-- A replacement neither adds a target nor takes one out. -/
@[simp] theorem length_replaced (id : WaypointId) (target : Target α) (targets : List (Target α)) :
    (replaced id target targets).length = targets.length :=
  List.length_map _

/-- Taking out looks at identifiers, which a replacement keeps. -/
theorem without_replaced (hid : target.id = id) :
    without other (replaced id target targets) = replaced id target (without other targets) := by
  rw [without, replaced, List.filter_map, without, replaced]
  congr 2
  funext found
  show ((if found.id = id then target else found).id != other) = (found.id != other)
  rw [id_replacement hid]

/-- Putting in looks at indexes, which a replacement keeps too. -/
theorem spliced_replaced (i : Nat) (added : Target α) :
    spliced (replaced id target targets) i (if added.id = id then target else added)
      = replaced id target (spliced targets i added) := by
  simp only [spliced, replaced, List.map_append, List.map_cons, List.map_take, List.map_drop]

/-- Two different targets are replaced in either order. -/
theorem replaced_comm {replacement : Target α} (hne : id ≠ other) (hid : target.id = id)
    (hother : replacement.id = other) :
    replaced other replacement (replaced id target targets)
      = replaced id target (replaced other replacement targets) := by
  rw [replaced, replaced, replaced, replaced, List.map_map, List.map_map]
  refine List.map_congr_left fun found _ => ?_
  show (if (if found.id = id then target else found).id = other then replacement
      else if found.id = id then target else found)
    = if (if found.id = other then replacement else found).id = id then target
      else if found.id = other then replacement else found
  by_cases hfound : found.id = id
  · simp [hfound, hid, hne]
  · by_cases hfound' : found.id = other
    · simp [hfound', hother, hne.symm]
    · simp [hfound, hfound']

/-! ### Edits of one target -/

/-- After an edit the itinerary has the targets of the edit. -/
@[simp] theorem targets_advance (itinerary : Itinerary α) (targets : List (Target α)) :
    (itinerary.advance targets).targets = targets := rfl

/-- The itinerary with the target of an identifier replaced. -/
def replace (itinerary : Itinerary α) (id : WaypointId) (target : Target α) : Itinerary α :=
  itinerary.advance (replaced id target itinerary.targets)

/-- Replacing in an itinerary replaces among its targets. -/
@[simp] theorem targets_replace (itinerary : Itinerary α) (id : WaypointId) (target : Target α) :
    (itinerary.replace id target).targets = replaced id target itinerary.targets := rfl

/-- A look-up among replaced targets. -/
theorem get?_replace (hid : target.id = id) :
    (itinerary.replace id target).get? other
      = (itinerary.get? other).map fun found => if found.id = id then target else found :=
  find?_replaced hid

/-- A look-up passes over what is replaced under another identifier. -/
theorem get?_replace_of_ne (hid : target.id = id) (hne : other ≠ id) :
    (itinerary.replace id target).get? other = itinerary.get? other := by
  rw [get?_replace hid]
  cases hget : itinerary.get? other with
  | none => rfl
  | some found => rw [Option.map_some, if_neg (by rwa [id_of_get? hget])]

variable [Scalar α] [Geodesy α]

/-- A target that is there is taken out. -/
theorem apply_remove_of_get? (h : itinerary.get? id = some target) :
    itinerary.apply (.remove id) = .ok (itinerary.advance (without id itinerary.targets)) := by
  rw [apply, h]

/-- A target that is there is moved to every index that the itinerary has. -/
theorem apply_move_of_get? (h : itinerary.get? id = some target) (goal : Nat) :
    itinerary.apply (.move id goal) =
      if itinerary.targets.length ≤ goal then
        .error (.indexOutOfRange goal itinerary.targets.length)
      else .ok (itinerary.advance (spliced (without id itinerary.targets) goal target)) := by
  rw [apply, h]

/-- A target that is not there is not revised. -/
theorem apply_update_of_get?_eq_none (h : itinerary.get? id = none) (r : Revision α) :
    itinerary.apply (.update id r) = .error (.unknownWaypoint id) := by
  rw [apply, h]

/-- A target that is there is revised if the revised one can be flown to. -/
theorem apply_update_of_get? (h : itinerary.get? id = some target) (r : Revision α) :
    itinerary.apply (.update id r) =
      if (target.revise r).isPlaced then .ok (itinerary.replace id (target.revise r))
      else .error (.invalidPosition (target.revise r)) := by
  rw [apply, h]
  simp only [overwritten_eq_revise, admits_iff]
  rfl

end Itinerary

end FlightPlan
