import FlightPlan.Proofs.Plan.Sound

/-!
# `FlightPlan.Proofs.Plan.FirstFault`: why a given sequence is refused

A given sequence is gone through once. At each waypoint its target is checked first, then its
identifier against those that were seen before. The first waypoint that fails either check decides,
and what comes behind it is not looked at.

`FaultyAt` says that the waypoint at an index fails, by look-ups in the sequence alone: the
identifiers seen at index `i` are those of the `i` waypoints in front, beside what was seen before
the walk began. One step of the walk moves an identifier from the sequence to what was seen
(`faultyAt_succ`), so the walk stops at the least faulty index (`checkAll_eq_error_iff`).
`ofWaypoints_decides` states when a sequence becomes a plan and with which error it is refused
otherwise.
-/

set_option autoImplicit false

namespace FlightPlan.Plan

open Legs (ids)

variable {α : Type} [Scalar α] {seen : List WaypointId} {waypoints : List (Waypoint α)}

/-- The waypoint at an index cannot be flown to, or its identifier was seen before. -/
def FaultyAt (seen : List WaypointId) (waypoints : List (Waypoint α)) (i : Nat) : Prop :=
  ∃ w, waypoints[i]? = some w
    ∧ (w.target.isPlaced = false ∨ w.target.id ∈ seen ∨ w.target.id ∈ ids (waypoints.take i))

/-- The waypoint is the first that is faulty, and stands at the index. -/
structure FirstFault (seen : List WaypointId) (waypoints : List (Waypoint α)) (i : Nat)
    (w : Waypoint α) : Prop where
  here : waypoints[i]? = some w
  faulty : FaultyAt seen waypoints i
  least : ∀ j < i, ¬ FaultyAt seen waypoints j

/-- Why a waypoint is refused that fails a check. That it cannot be flown to comes before that it
is there already. -/
def refusal (w : Waypoint α) : EditError α :=
  if w.target.isPlaced then .duplicateWaypoint w.target.id else .invalidPosition w.target

/-! ### One step of the walk -/

/-- The first waypoint is faulty when it cannot be flown to or its identifier was seen before. -/
theorem faultyAt_zero {w : Waypoint α} {rest : List (Waypoint α)} :
    FaultyAt seen (w :: rest) 0 ↔ w.target.isPlaced = false ∨ w.target.id ∈ seen := by
  simp [FaultyAt, ids]

/-- Behind the first waypoint, its identifier is one of those that were seen. -/
theorem faultyAt_succ {w : Waypoint α} {rest : List (Waypoint α)} {i : Nat} :
    FaultyAt seen (w :: rest) (i + 1) ↔ FaultyAt (w.target.id :: seen) rest i := by
  simp only [FaultyAt, List.getElem?_cons_succ, List.take_succ_cons, Legs.ids_cons, List.mem_cons]
  refine exists_congr fun v => and_congr_right fun _ => or_congr_right ?_
  rw [or_left_comm, or_assoc]

/-- The first fault is at the first waypoint when that is faulty. -/
theorem firstFault_cons_of_faulty {w v : Waypoint α} {rest : List (Waypoint α)} {i : Nat}
    (hfaulty : FaultyAt seen (w :: rest) 0) :
    FirstFault seen (w :: rest) i v ↔ i = 0 ∧ v = w := by
  constructor
  · intro h
    obtain rfl : i = 0 := Nat.eq_zero_of_not_pos fun hpos => h.least 0 hpos hfaulty
    exact ⟨rfl, (Option.some.inj h.here).symm⟩
  · rintro ⟨rfl, rfl⟩
    exact ⟨rfl, hfaulty, fun j hj => absurd hj (Nat.not_lt_zero j)⟩

/-- Otherwise it is the first fault of the rest. -/
theorem firstFault_cons {w v : Waypoint α} {rest : List (Waypoint α)} {i : Nat}
    (hsound : ¬ FaultyAt seen (w :: rest) 0) :
    FirstFault seen (w :: rest) i v ↔
      ∃ j, i = j + 1 ∧ FirstFault (w.target.id :: seen) rest j v := by
  constructor
  · intro h
    cases i with
    | zero => exact absurd h.faulty hsound
    | succ j =>
        refine ⟨j, rfl, h.here, faultyAt_succ.mp h.faulty, fun k hk hfaulty => ?_⟩
        exact h.least (k + 1) (Nat.succ_lt_succ hk) (faultyAt_succ.mpr hfaulty)
  · rintro ⟨j, rfl, h⟩
    refine ⟨h.here, faultyAt_succ.mpr h.faulty, fun k hk hfaulty => ?_⟩
    cases k with
    | zero => exact hsound hfaulty
    | succ k => exact h.least k (Nat.lt_of_succ_lt_succ hk) (faultyAt_succ.mp hfaulty)

/-- One step of the walk refuses a faulty waypoint, and goes on behind any other. -/
theorem checkAll_cons (seen : List WaypointId) (w : Waypoint α) (rest : List (Waypoint α)) :
    checkAll seen (w :: rest) =
      if w.target.isPlaced = false ∨ w.target.id ∈ seen then .error (refusal w)
      else checkAll (w.target.id :: seen) rest := by
  by_cases hplaced : w.target.isPlaced = true <;> by_cases hseen : w.target.id ∈ seen <;>
    simp [checkAll, checkPlaced, refusal, hplaced, hseen, bind, Except.bind]

/-! ### The whole walk -/

/-- The walk ends at the first fault, with the refusal of the waypoint there. -/
theorem checkAll_eq_error_iff {error : EditError α} :
    checkAll seen waypoints = .error error ↔
      ∃ i w, FirstFault seen waypoints i w ∧ error = refusal w := by
  -- The identifiers seen grow with every step, so the induction is for all of them.
  induction waypoints generalizing seen with
  | nil =>
      simp only [checkAll, reduceCtorEq, false_iff]
      rintro ⟨i, w, h, -⟩
      exact absurd h.here (by simp)
  | cons w rest ih =>
      rw [checkAll_cons]
      split
      · rename_i hfault
        simp only [firstFault_cons_of_faulty (faultyAt_zero.mpr hfault), Except.error.injEq]
        constructor
        · rintro rfl
          exact ⟨0, w, ⟨rfl, rfl⟩, rfl⟩
        · rintro ⟨_, _, ⟨rfl, rfl⟩, rfl⟩
          rfl
      · rename_i hsound
        rw [ih]
        simp only [firstFault_cons (faultyAt_zero.not.mpr hsound)]
        constructor
        · rintro ⟨j, v, h, rfl⟩
          exact ⟨j + 1, v, ⟨j, rfl, h⟩, rfl⟩
        · rintro ⟨_, v, ⟨j, rfl, h⟩, rfl⟩
          exact ⟨j, v, h, rfl⟩

variable [Geodesy α]

/-- A given sequence becomes a plan exactly when every waypoint can be flown to and no identifier
comes twice. Then the plan has version zero, and its legs are computed. In all other cases there is
a first waypoint that cannot be flown to or has an identifier of one before it, and the sequence is
refused because of that waypoint: as invalid with its target if it cannot be flown to, and as a
duplicate with its identifier otherwise. -/
theorem ofWaypoints_decides (limits : Limits α) (waypoints : List (Waypoint α)) :
    (∀ plan, ofWaypoints limits waypoints = .ok plan ↔
        ((∀ w ∈ waypoints, w.target.isPlaced = true) ∧ (ids waypoints).Nodup)
          ∧ plan = ⟨0, limits, Legs.recompute limits waypoints⟩)
      ∧ (∀ error, ofWaypoints limits waypoints = .error error ↔
          ∃ i w, FirstFault [] waypoints i w
            ∧ error = if w.target.isPlaced then .duplicateWaypoint w.target.id
                else .invalidPosition w.target) := by
  refine ⟨fun plan => ofWaypoints_eq_ok_iff, fun error => ?_⟩
  have hcheck : ofWaypoints limits waypoints = .error error ↔
      checkAll [] waypoints = .error error := by
    rw [ofWaypoints]
    cases checkAll [] waypoints <;> simp [bind, Except.bind]
  rw [hcheck, checkAll_eq_error_iff]
  rfl

end FlightPlan.Plan
