import FlightPlan.Plan
import Mathlib.Data.List.InsertIdx
import Mathlib.Data.List.Nodup

/-!
# `FlightPlan.Proofs.Legs.OneChange`: sequences that differ in one waypoint

Waypoints are known by their identifiers, which a plan never holds twice. In a
sequence of distinct identifiers a waypoint and its index are found again by
identifier (`eq_of_id_eq`, `findIdx?_id`).

`OneChange old id new` says that `new` comes from `old` by one change of the
waypoint `id`: it was taken to another index, replaced, or put in. `AgreeBut id`
is what all three have in common, and what the proofs about legs use: without
the waypoint `id` both sequences are the same. The theorems:

* `OneChange.agreeBut`: one change of a sequence without repeated identifiers
  leaves the others where they are, and repeats no identifier.
* `AgreeBut.eq_of_id_eq`: away from `id`, equal identifiers mean equal
  waypoints across the two sequences.
* `AgreeBut.not_swapped`: away from `id`, two neighbours of the one sequence are
  not neighbours the other way around in the other.
-/

set_option autoImplicit false

namespace FlightPlan.Legs

variable {α : Type}

/-- The identifiers of a sequence. -/
def ids (waypoints : List (Waypoint α)) : List WaypointId :=
  waypoints.map (·.target.id)

/-- Every waypoint has an identifier. -/
@[simp] theorem length_ids (waypoints : List (Waypoint α)) :
    (ids waypoints).length = waypoints.length :=
  List.length_map _

/-- The first identifier is that of the first waypoint. -/
@[simp] theorem ids_cons (w : Waypoint α) (rest : List (Waypoint α)) :
    ids (w :: rest) = w.target.id :: ids rest := rfl

/-- An identifier of a sequence is that of one of its waypoints. -/
theorem mem_ids {waypoints : List (Waypoint α)} {id : WaypointId} :
    id ∈ ids waypoints ↔ ∃ w ∈ waypoints, w.target.id = id :=
  List.mem_map

/-- Identifiers are read off the targets alone. -/
theorem ids_congr {first second : List (Waypoint α)}
    (h : first.map Waypoint.target = second.map Waypoint.target) : ids first = ids second := by
  have hids := congrArg (List.map Target.id) h
  rw [List.map_map, List.map_map] at hids
  exact hids

/-! ### Distinct identifiers -/

/-- A waypoint is known by its identifier. -/
theorem eq_of_id_eq {waypoints : List (Waypoint α)} (hdistinct : (ids waypoints).Nodup)
    {v w : Waypoint α} (hv : v ∈ waypoints) (hw : w ∈ waypoints)
    (hid : v.target.id = w.target.id) : v = w :=
  List.inj_on_of_nodup_map hdistinct hv hw hid

/-- An index is known by the identifier of its waypoint. -/
theorem index_eq_of_id_eq {waypoints : List (Waypoint α)} (hdistinct : (ids waypoints).Nodup)
    {i j : Nat} {v w : Waypoint α} (hv : waypoints[i]? = some v) (hw : waypoints[j]? = some w)
    (hid : v.target.id = w.target.id) : i = j := by
  obtain ⟨hi, rfl⟩ := List.getElem?_eq_some_iff.mp hv
  obtain ⟨hj, rfl⟩ := List.getElem?_eq_some_iff.mp hw
  have hi' : i < (ids waypoints).length := by rwa [length_ids]
  have hj' : j < (ids waypoints).length := by rwa [length_ids]
  have hids : (ids waypoints)[i] = (ids waypoints)[j] := by simpa [ids] using hid
  exact hdistinct.getElem_inj_iff.mp hids

/-- The look-up by identifier finds a waypoint where it is. -/
theorem findIdx?_id {waypoints : List (Waypoint α)} (hdistinct : (ids waypoints).Nodup)
    {i : Nat} {w : Waypoint α} (hw : waypoints[i]? = some w) :
    waypoints.findIdx? (·.target.id == w.target.id) = some i := by
  obtain ⟨hi, rfl⟩ := List.getElem?_eq_some_iff.mp hw
  rw [List.findIdx?_eq_some_iff_getElem]
  refine ⟨hi, by simp, fun j hj => ?_⟩
  have hne : waypoints[j].target.id ≠ waypoints[i].target.id := fun hid =>
    Nat.ne_of_lt hj (index_eq_of_id_eq hdistinct (List.getElem?_eq_getElem (by omega)) hw hid)
  simpa using hne

/-- The waypoint `id` is found at its index only. -/
theorem id_ne_of_index_ne {id : WaypointId} {waypoints : List (Waypoint α)}
    (hdistinct : (ids waypoints).Nodup) {changed j : Nat}
    (hchanged : waypoints.findIdx? (·.target.id == id) = some changed) {w : Waypoint α}
    (hw : waypoints[j]? = some w) (hj : j ≠ changed) : w.target.id ≠ id := by
  rintro rfl
  rw [findIdx?_id hdistinct hw] at hchanged
  exact hj (Option.some.inj hchanged)

/-! ### The other waypoints -/

/-- The waypoints of a sequence but those with one identifier. -/
def others (id : WaypointId) (waypoints : List (Waypoint α)) : List (Waypoint α) :=
  waypoints.filter (·.target.id != id)

/-- The others are the waypoints with another identifier. -/
theorem mem_others {id : WaypointId} {waypoints : List (Waypoint α)} {w : Waypoint α} :
    w ∈ others id waypoints ↔ w ∈ waypoints ∧ w.target.id ≠ id := by
  simp [others]

/-- A waypoint put in is no other to itself. -/
theorem others_insertIdx {id : WaypointId} {w : Waypoint α} (hid : w.target.id = id)
    (waypoints : List (Waypoint α)) (i : Nat) :
    others id (waypoints.insertIdx i w) = others id waypoints := by
  have hw : ¬ (w.target.id != id) = true := by simp [hid]
  induction waypoints generalizing i with
  | nil =>
      cases i with
      | zero => exact List.filter_cons_of_neg hw
      | succ i => rfl
  | cons v rest ih =>
      cases i with
      | zero => exact List.filter_cons_of_neg hw
      | succ i =>
          rw [List.insertIdx_succ_cons, others, others, List.filter_cons, List.filter_cons]
          simp only [← others.eq_def, ih]

/-- A waypoint put in adds its identifier. -/
theorem ids_insertIdx_perm (waypoints : List (Waypoint α)) {i : Nat}
    (hi : i ≤ waypoints.length) (w : Waypoint α) :
    (ids (waypoints.insertIdx i w)).Perm (w.target.id :: ids waypoints) :=
  (List.perm_insertIdx w waypoints hi).map _

/-- Two waypoints that follow each other are a part of what remains without a third. -/
theorem pair_sublist_others {id : WaypointId} {waypoints : List (Waypoint α)} {i : Nat}
    {v w : Waypoint α} (hv : waypoints[i]? = some v) (hw : waypoints[i + 1]? = some w)
    (hvid : v.target.id ≠ id) (hwid : w.target.id ≠ id) :
    List.Sublist [v, w] (others id waypoints) := by
  obtain ⟨hi, rfl⟩ := List.getElem?_eq_some_iff.mp hv
  obtain ⟨hj, rfl⟩ := List.getElem?_eq_some_iff.mp hw
  have hdrop : waypoints.drop i
      = waypoints[i] :: waypoints[i + 1] :: waypoints.drop (i + 1 + 1) := by
    rw [List.drop_eq_getElem_cons hi, List.drop_eq_getElem_cons hj]
  have hpair : List.Sublist [waypoints[i], waypoints[i + 1]] (waypoints.drop i) := by
    rw [hdrop]
    exact ((List.nil_sublist _).cons_cons _).cons_cons _
  have hfilter := (hpair.trans (List.drop_sublist i waypoints)).filter (·.target.id != id)
  rwa [List.filter_cons_of_pos (by simpa using hvid),
    List.filter_cons_of_pos (by simpa using hwid), List.filter_nil] at hfilter

/-- Two entries of a list without repetitions come in one order only. -/
theorem not_sublist_swap {β : Type} {entries : List β} (hnodup : entries.Nodup) {a b : β}
    (hab : List.Sublist [a, b] entries) : ¬ List.Sublist [b, a] entries := by
  induction entries with
  | nil => exact nomatch hab
  | cons c rest ih =>
      intro hba
      obtain ⟨hc, hrest⟩ := List.nodup_cons.mp hnodup
      cases hab with
      | cons _ hab =>
          cases hba with
          | cons _ hba => exact ih hrest hab hba
          | cons_cons _ _ => exact hc (hab.subset (by simp))
      | cons_cons _ _ =>
          cases hba with
          | cons _ hba => exact hc (hba.subset (by simp))
          | cons_cons _ hba => exact hc (hba.subset (by simp))

/-! ### Two sequences that agree but for one waypoint -/

/-- Two sequences without repeated identifiers that hold the same waypoints in the same
order, those with one identifier aside. -/
structure AgreeBut (id : WaypointId) (first second : List (Waypoint α)) : Prop where
  distinct_first : (ids first).Nodup
  distinct_second : (ids second).Nodup
  others_eq : others id first = others id second

namespace AgreeBut

variable {id : WaypointId} {first second : List (Waypoint α)}

/-- Every other waypoint of the one sequence is in the other. -/
theorem mem_first (h : AgreeBut id first second) {w : Waypoint α} (hw : w ∈ second)
    (hne : w.target.id ≠ id) : w ∈ first := by
  have hothers : w ∈ others id first := by
    rw [h.others_eq]
    exact mem_others.mpr ⟨hw, hne⟩
  exact (mem_others.mp hothers).1

/-- A waypoint that is not the changed one is there afterwards. -/
theorem mem_second (h : AgreeBut id first second) {w : Waypoint α} (hw : w ∈ first)
    (hne : w.target.id ≠ id) : w ∈ second :=
  mem_first ⟨h.distinct_second, h.distinct_first, h.others_eq.symm⟩ hw hne

/-- Away from `id`, equal identifiers mean equal waypoints across the two sequences. -/
theorem eq_of_id_eq (h : AgreeBut id first second) {v w : Waypoint α} (hv : v ∈ first)
    (hw : w ∈ second) (hid : v.target.id = w.target.id) (hne : w.target.id ≠ id) : v = w :=
  Legs.eq_of_id_eq h.distinct_first hv (h.mem_first hw hne) hid

/-- Away from `id`, two neighbours of the one sequence are not neighbours the other way
around in the other. -/
theorem not_swapped (h : AgreeBut id first second) {i j : Nat} {v w : Waypoint α}
    (hv : first[i]? = some v) (hw : first[i + 1]? = some w)
    (hw' : second[j]? = some w) (hv' : second[j + 1]? = some v)
    (hvid : v.target.id ≠ id) (hwid : w.target.id ≠ id) : False := by
  have hvw := pair_sublist_others hv hw hvid hwid
  have hwv := pair_sublist_others hw' hv' hwid hvid
  rw [← h.others_eq] at hwv
  have hnodup : (others id first).Nodup := h.distinct_first.of_map.filter _
  exact not_sublist_swap hnodup hvw hwv

/-- A waypoint and another with its identifier, at whatever index among the same others. -/
theorem of_insertIdx (rest : List (Waypoint α)) {v w : Waypoint α} {i j : Nat}
    (hid : w.target.id = v.target.id) (hi : i ≤ rest.length) (hj : j ≤ rest.length)
    (hdistinct : (ids (rest.insertIdx i v)).Nodup) :
    AgreeBut v.target.id (rest.insertIdx i v) (rest.insertIdx j w) where
  distinct_first := hdistinct
  distinct_second := by
    rw [(ids_insertIdx_perm rest hi v).nodup_iff] at hdistinct
    rwa [(ids_insertIdx_perm rest hj w).nodup_iff, hid]
  others_eq := by
    rw [others_insertIdx rfl, others_insertIdx hid]

end AgreeBut

/-! ### One change -/

/-- Taking an entry to another index keeps the entries. -/
theorem relocate_perm {β : Type} (entries : List β) (source : Nat) {goal : Nat}
    (hgoal : goal < entries.length) : (Plan.relocate entries source goal).Perm entries := by
  unfold Plan.relocate
  split
  · rename_i entry hentry
    obtain ⟨hsource, rfl⟩ := List.getElem?_eq_some_iff.mp hentry
    have hlength := List.length_eraseIdx_of_lt hsource
    have hput (i : Nat) (hi : i < entries.length) :=
      List.perm_insertIdx entries[source] (entries.eraseIdx source)
        (show i ≤ (entries.eraseIdx source).length by omega)
    have hback := hput source hsource
    rw [List.insertIdx_eraseIdx_getElem hsource] at hback
    exact (hput goal hgoal).trans hback.symm
  · exact List.Perm.refl entries

/-- One waypoint of a sequence is changed: it is taken to another index, replaced by one
with the same identifier, or put in anew. -/
inductive OneChange (old : List (Waypoint α)) : WaypointId → List (Waypoint α) → Prop where
  | move {source goal : Nat} {w : Waypoint α} (hw : old[source]? = some w)
      (hgoal : goal < old.length) : OneChange old w.target.id (Plan.relocate old source goal)
  | edit {index : Nat} {w edited : Waypoint α} (hw : old[index]? = some w)
      (hid : edited.target.id = w.target.id) :
      OneChange old w.target.id (old.set index edited)
  | insert {index : Nat} {w : Waypoint α} (hindex : index ≤ old.length)
      (hid : w.target.id ∉ ids old) : OneChange old w.target.id (old.insertIdx index w)

namespace OneChange

variable {id : WaypointId} {old new : List (Waypoint α)}

/-- One change of a sequence without repeated identifiers leaves the others where they
are, and repeats no identifier. A waypoint that is moved or replaced is put in among the
same others again. -/
theorem agreeBut (h : OneChange old id new) (hdistinct : (ids old).Nodup) :
    AgreeBut id old new := by
  cases h with
  | @move source goal w hw hgoal =>
      obtain ⟨hsource, rfl⟩ := List.getElem?_eq_some_iff.mp hw
      have hold := List.insertIdx_eraseIdx_getElem hsource
      have hlength := List.length_eraseIdx_of_lt hsource
      have hagree := AgreeBut.of_insertIdx (old.eraseIdx source) (v := old[source])
        (i := source) (j := goal) rfl (by omega) (by omega) (by rwa [hold])
      rw [hold] at hagree
      rwa [Plan.relocate, hw]
  | @edit index w edited hw hid =>
      obtain ⟨hindex, rfl⟩ := List.getElem?_eq_some_iff.mp hw
      have hold := List.insertIdx_eraseIdx_getElem hindex
      have hlength := List.length_eraseIdx_of_lt hindex
      have hagree := AgreeBut.of_insertIdx (old.eraseIdx index) (i := index) (j := index)
        hid (by omega) (by omega) (by rwa [hold])
      rwa [hold, List.insertIdx_eraseIdx_self (by omega)] at hagree
  | @insert index w hindex hid =>
      refine ⟨hdistinct, ?_, (others_insertIdx rfl old index).symm⟩
      rw [(ids_insertIdx_perm old hindex w).nodup_iff]
      exact List.nodup_cons.mpr ⟨hid, hdistinct⟩

/-- The changed waypoint is there after the change. -/
theorem exists_mem (h : OneChange old id new) : ∃ w ∈ new, w.target.id = id := by
  cases h with
  | @move source goal w hw hgoal =>
      exact ⟨w, (relocate_perm old source hgoal).mem_iff.mpr (List.mem_of_getElem? hw), rfl⟩
  | @edit index w edited hw hid =>
      obtain ⟨hindex, -⟩ := List.getElem?_eq_some_iff.mp hw
      exact ⟨edited, List.mem_set hindex edited, hid⟩
  | @insert index w hindex hid =>
      exact ⟨w, (List.mem_insertIdx hindex).mpr (Or.inl rfl), rfl⟩

end OneChange

end FlightPlan.Legs
