import FlightPlan.Proofs.Document.Waypoint
import FlightPlan.Proofs.Json.Finite

/-!
# `FlightPlan.Proofs.Document.Finite`: waypoints that are read have finite numbers

A value that was read holds finite numbers only, and so do the records that are taken from it
(`Json.finite_record`). What is not given is zero. So every number of a waypoint from a
trajectory file is finite, those of its leg included (`Waypoint.isFinite_of_listOfText?`).
-/

set_option autoImplicit false

namespace FlightPlan

namespace Json

/-- The values of a record are finite. -/
def Record.Finite (r : Record) : Prop :=
  ∀ member ∈ r.values, Json.Finite member.2

/-- What a record is read from hands its numbers on, so a record of a finite document is
finite. -/
theorem finite_record {fields : List Field} {j : Json} {r : Record} (hj : j.Finite)
    (h : record fields j = some r) : r.Finite := by
  cases hj with
  | @object members hmembers =>
      rw [record] at h
      split at h
      · obtain rfl := Option.some.inj h
        intro member hmember
        obtain ⟨given, hgiven, hclaimed⟩ := List.mem_filterMap.mp hmember
        obtain ⟨f, -, rfl⟩ := Option.map_eq_some_iff.mp hclaimed
        exact hmembers given hgiven
      · contradiction
  | @array items hitems =>
      rw [record] at h
      split at h
      · obtain rfl := Option.some.inj h
        intro member hmember
        exact hitems member.2 (List.of_mem_zip hmember).2
      · contradiction
  | null => contradiction
  | bool b => contradiction
  | number hn => contradiction
  | string s => contradiction
  | unrepresentable => contradiction

namespace Record

variable {r : Record} {name : String} {x : Float}

/-- A value of a finite record is finite. -/
theorem finite_get? (hr : r.Finite) {j : Json} (h : r.get? name = some j) : j.Finite := by
  obtain ⟨before, behind, hvalues, -⟩ := List.lookup_eq_some_iff.mp h
  exact hr (name, j) (by simp [hvalues])

/-- A number that a finite record must give is finite. -/
theorem isFinite_required (hr : r.Finite) (h : r.required name float? = some x) :
    x.isFinite = true := by
  obtain ⟨j, hj, hx⟩ := Option.bind_eq_some_iff.mp h
  exact (finite_get? hr hj).isFinite hx

/-- A number of a finite record is finite where it is given, and zero where it is not. -/
theorem isFinite_getD (hr : r.Finite) (h : r.getD name float? 0.0 = some x) :
    x.isFinite = true := by
  rw [getD] at h
  cases hj : r.get? name with
  | none =>
      rw [hj] at h
      obtain rfl := Option.some.inj h
      decide
  | some j =>
      rw [hj] at h
      exact (finite_get? hr hj).isFinite h

end Record

end Json

/-! ### Heading modes -/

namespace HeadingMode

/-- The heading of a mode comes from the value beside its kind, and is finite if that is. -/
theorem isFinite_of_ofKind? {kind : Kind} {degrees : Option Json} {mode : HeadingMode Float}
    (hdegrees : ∀ j, degrees = some j → j.Finite) (h : ofKind? kind degrees = some mode) :
    ∀ x ∈ mode.numbers, x.isFinite = true := by
  unfold ofKind? at h
  split at h
  · obtain rfl := Option.some.inj h
    exact nofun
  · obtain rfl := Option.some.inj h
    exact nofun
  · exact nomatch h
  · obtain ⟨x, hx, rfl⟩ := Option.map_eq_some_iff.mp h
    obtain ⟨j, hj, hx⟩ := Option.bind_eq_some_iff.mp hx
    rw [numbers, List.forall_mem_singleton]
    exact (hdegrees j hj).isFinite hx

/-- A heading mode that is read from a finite document has a finite heading. -/
theorem isFinite_of_ofJson? {naming : Naming} {j : Json} {mode : HeadingMode Float}
    (hj : j.Finite) (h : ofJson? naming j = some mode) :
    ∀ x ∈ mode.numbers, x.isFinite = true := by
  unfold ofJson? at h
  split at h
  · rename_i kind degrees
    cases hj with
    | array hitems =>
        obtain ⟨kind, -, h⟩ := Option.bind_eq_some_iff.mp h
        refine isFinite_of_ofKind? ?_ h
        intro j hdegrees
        obtain rfl := Option.some.inj hdegrees
        exact hitems _ (by simp)
  · obtain ⟨r, hrecord, h⟩ := Option.bind_eq_some_iff.mp h
    obtain ⟨name, -, h⟩ := Option.bind_eq_some_iff.mp h
    obtain ⟨kind, -, h⟩ := Option.bind_eq_some_iff.mp h
    exact isFinite_of_ofKind? (fun j => Json.Record.finite_get? (Json.finite_record hj hrecord)) h
  · exact nomatch h

end HeadingMode

/-! ### Waypoints -/

namespace Waypoint

variable {naming : HeadingMode.Naming} {ids : FreshIds}

/-- Every number of a waypoint is given by its record or is zero, so it is finite if the record
is. -/
theorem isFinite_of_ofRecord? {id : WaypointId} {r : Json.Record} {w : Waypoint Float}
    (hr : r.Finite) (h : ofRecord? naming id r = some w) : ∀ x ∈ w.numbers, x.isFinite = true := by
  simp only [ofRecord?, Option.bind_eq_bind, Option.bind_eq_some_iff, Option.some.injEq] at h
  obtain ⟨id, -, name, -, lat, hlat, lon, hlon, altitude, haltitude, time, htime, mode, hmode,
    heading, hheading, speed, hspeed, feasible, -, course, hcourse, peer, -, rfl⟩ := h
  refine forall_mem_numbers.mpr ⟨⟨?_, ?_, ?_, ?_⟩, ?_, ?_, ?_, ?_⟩
  · exact Json.Record.isFinite_required hr hlat
  · exact Json.Record.isFinite_required hr hlon
  · exact Json.Record.isFinite_required hr haltitude
  · exact Json.Record.isFinite_required hr htime
  · rw [Json.Record.getD] at hmode
    split at hmode
    · obtain rfl := Option.some.inj hmode
      exact List.forall_mem_nil _
    · rename_i j hj
      exact HeadingMode.isFinite_of_ofJson? (Json.Record.finite_get? hr hj) hmode
  · exact Json.Record.isFinite_getD hr hheading
  · exact Json.Record.isFinite_getD hr hspeed
  · exact Json.Record.isFinite_getD hr hcourse

/-- Waypoints that are read one after the other, each from a finite item, have finite numbers. -/
theorem isFinite_of_listOfJson? {next last : Nat} {items : List Json}
    {waypoints : List (Waypoint Float)} (hitems : ∀ item ∈ items, item.Finite)
    (h : listOfJson? naming ids next items = some (waypoints, last)) :
    ∀ w ∈ waypoints, ∀ x ∈ w.numbers, x.isFinite = true := by
  induction items generalizing next last waypoints with
  | nil =>
      obtain ⟨rfl, -⟩ := Prod.mk.inj (Option.some.inj h)
      exact nofun
  | cons j rest ih =>
      rw [List.forall_mem_cons] at hitems
      obtain ⟨⟨w, after⟩, hw, h⟩ := Option.bind_eq_some_iff.mp h
      obtain ⟨⟨others, final⟩, hothers, h⟩ := Option.bind_eq_some_iff.mp h
      obtain ⟨rfl, -⟩ := Prod.mk.inj (Option.some.inj h)
      obtain ⟨r, hrecord, hw⟩ := Option.bind_eq_some_iff.mp hw
      obtain ⟨w', hwaypoint, hw⟩ := Option.bind_eq_some_iff.mp hw
      obtain ⟨rfl, -⟩ := Prod.mk.inj (Option.some.inj hw)
      rw [List.forall_mem_cons]
      exact ⟨isFinite_of_ofRecord? (Json.finite_record hitems.1 hrecord) hwaypoint,
        ih hitems.2 hothers⟩

/-- All numbers of waypoints from a trajectory file are finite. -/
theorem isFinite_of_listOfText? {text : String} {waypoints : List (Waypoint Float)}
    (h : listOfText? ids text = some waypoints) :
    ∀ w ∈ waypoints, ∀ x ∈ w.numbers, x.isFinite = true := by
  obtain ⟨j, hj, h⟩ := Option.bind_eq_some_iff.mp h
  obtain ⟨items, hitems, h⟩ := Option.bind_eq_some_iff.mp h
  obtain ⟨⟨read, last⟩, hread, h⟩ := Option.bind_eq_some_iff.mp h
  obtain rfl := Option.some.inj h
  have hfinite := Json.finite_of_readStrict hj
  refine isFinite_of_listOfJson? ?_ hread
  unfold itemsOfFile? at hitems
  split at hitems
  · obtain rfl := Option.some.inj hitems
    cases hfinite with
    | array hitems => exact hitems
  · rename_i members
    split at hitems
    · rename_i list hlist
      obtain rfl := Option.some.inj hitems
      cases hfinite with
      | object hmembers =>
          -- The list is the value of the one member with the name, which is among the members.
          have hmem : Json.array list ∈ membersNamed "waypoints" members := by simp [hlist]
          obtain ⟨member, hmember, hvalue⟩ := List.mem_map.mp hmem
          have harray := hmembers member (List.mem_filter.mp hmember).1
          rw [hvalue] at harray
          cases harray with
          | array hitems => exact hitems
    · exact nomatch hitems
  · exact nomatch hitems

end Waypoint

end FlightPlan
