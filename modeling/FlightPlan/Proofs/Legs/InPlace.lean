import FlightPlan.Proofs.Legs.Refresh

/-!
# `FlightPlan.Proofs.Legs.InPlace`: legs stored one after the other

`Legs.recompute` and `Legs.refresh` hand every waypoint its neighbours first and compute legs
afterwards. A loop over one stored sequence does it in another way. It goes from index to index,
looks up the neighbours as they are by then, and writes the leg into the sequence (`store`,
`storeAll`). Its later steps read what its earlier steps wrote.

That makes no difference. A step writes a leg, a leg follows from targets, and so the step leaves
behind a sequence of which the same legs would be computed (`recompute_store`). The theorems:

* `getElem?_store` and `getElem?_storeAll`: where a leg was stored, the sequence holds what a full
  computation of the original sequence gives, and elsewhere what it held. The order of the indexes
  does not matter, nor that one comes twice.
* `storeAll_range`: storing at every index in turn is the full computation.
* `refresh_eq_storeAll`: refreshing stores at the `stale` indexes, which are those that the change
  touches and those whose recorded neighbour is another one.
-/

set_option autoImplicit false

namespace FlightPlan.Legs

section
variable {α : Type}

/-- The target that the leg at an index is computed with: the one behind it, or the one before it
where nothing is behind. -/
def neighbour? (waypoints : List (Waypoint α)) (i : Nat) : Option (Target α) :=
  (behind waypoints i).or (before waypoints i)

/-- The neighbour at an index is the peer of the waypoint that is placed there. -/
theorem peer_eq_neighbour {waypoints : List (Waypoint α)} {i : Nat} {p : Placed α}
    (hp : (placed waypoints)[i]? = some p) :
    p.peer = (neighbour? waypoints i).map Target.id := by
  obtain ⟨-, hbefore, hbehind⟩ := getElem?_placed_eq_some.mp hp
  rw [neighbour?, hbefore, hbehind, Placed.peer_eq_or]

/-- The indexes at which a change of the waypoint at `changed` makes legs stale, from the first to
the last. -/
def stale (waypoints : List (Waypoint α)) (changed : Nat) : List Nat :=
  (List.range waypoints.length).filter fun i =>
    waypoints[i]?.any fun w =>
      isTouched waypoints.length changed i
        || w.leg.peer != (neighbour? waypoints i).map Target.id

/-- A change touches the leg of the changed waypoint, the leg before it, and that of the last
waypoint if it comes right behind. -/
theorem isTouched_iff {count changed i : Nat} :
    isTouched count changed i = true ↔
      i = changed ∨ i + 1 = changed ∨ (changed + 2 = count ∧ i + 1 = count) := by
  simp [isTouched, or_assoc]

/-- A leg is stale when the change touches it or it was computed with another neighbour. -/
theorem mem_stale_iff {waypoints : List (Waypoint α)} {changed i : Nat} {w : Waypoint α}
    (hw : waypoints[i]? = some w) :
    i ∈ stale waypoints changed ↔
      isTouched waypoints.length changed i = true
        ∨ w.leg.peer ≠ (neighbour? waypoints i).map Target.id := by
  have hi : i < waypoints.length := (List.getElem?_eq_some_iff.mp hw).1
  rw [stale, List.mem_filter, and_iff_right (List.mem_range.mpr hi), hw, Option.any_some,
    Bool.or_eq_true, bne_iff_ne]

end

variable {α : Type} [Scalar α] [Geodesy α]

/-- The sequence with the leg at an index computed from the neighbours that are there now. -/
def store (limits : Limits α) (waypoints : List (Waypoint α)) (i : Nat) : List (Waypoint α) :=
  waypoints.modify i fun here =>
    Placed.computed limits ⟨before waypoints i, here, behind waypoints i⟩

/-- The sequence with legs stored at several indexes, one after the other. -/
def storeAll (limits : Limits α) (waypoints : List (Waypoint α)) (indexes : List Nat) :
    List (Waypoint α) :=
  indexes.foldl (store limits) waypoints

/-! ### One step -/

/-- A step changes the waypoint at its index only, to what a full computation makes of it. -/
theorem getElem?_store (limits : Limits α) (waypoints : List (Waypoint α)) (i j : Nat) :
    (store limits waypoints i)[j]?
      = if i = j then (recompute limits waypoints)[j]? else waypoints[j]? := by
  rw [store, List.getElem?_modify]
  by_cases h : i = j
  · subst h
    rw [if_pos rfl, getElem?_recompute, getElem?_placed, Option.map_map]
    cases waypoints[i]? with
    | none => rfl
    | some here => simp
  · rw [if_neg h]
    cases waypoints[j]? with
    | none => rfl
    | some here => simp [h]

/-- A step leaves every target as it was. -/
theorem map_target_store (limits : Limits α) (waypoints : List (Waypoint α)) (i : Nat) :
    (store limits waypoints i).map Waypoint.target = waypoints.map Waypoint.target := by
  refine List.ext_getElem? ?_
  intro j
  rw [List.getElem?_map, getElem?_store]
  split
  · rw [← List.getElem?_map, map_target_recompute]
  · rw [List.getElem?_map]

/-- After a step, the same legs are still to be computed. -/
theorem recompute_store (limits : Limits α) (waypoints : List (Waypoint α)) (i : Nat) :
    recompute limits (store limits waypoints i) = recompute limits waypoints :=
  recompute_congr limits (map_target_store limits waypoints i)

/-! ### All steps -/

/-- After all steps, the legs at the indexes are those of the original sequence computed anew, and
the other waypoints are as they were. -/
theorem getElem?_storeAll (limits : Limits α) (waypoints : List (Waypoint α))
    (indexes : List Nat) (j : Nat) :
    (storeAll limits waypoints indexes)[j]?
      = if j ∈ indexes then (recompute limits waypoints)[j]? else waypoints[j]? := by
  induction indexes generalizing waypoints with
  | nil => rfl
  | cons i rest ih =>
      show (storeAll limits (store limits waypoints i) rest)[j]? = _
      rw [ih, recompute_store, getElem?_store]
      by_cases hrest : j ∈ rest
      · rw [if_pos hrest, if_pos (List.mem_cons_of_mem i hrest)]
      · -- No later step comes back to `j`, so it holds what this step leaves there.
        rw [if_neg hrest]
        by_cases hi : i = j
        · rw [if_pos hi, if_pos (by simp [hi])]
        · rw [if_neg hi, if_neg (by simp [hrest, Ne.symm hi])]

/-- Storing the legs at all indexes in turn computes all of them anew, though every step reads a
sequence that the steps before it wrote to. -/
theorem storeAll_range (limits : Limits α) (waypoints : List (Waypoint α)) :
    storeAll limits waypoints (List.range waypoints.length) = recompute limits waypoints := by
  refine List.ext_getElem? ?_
  intro j
  rw [getElem?_storeAll]
  split
  · rfl
  · rename_i hj
    rw [List.mem_range, Nat.not_lt] at hj
    rw [List.getElem?_eq_none hj, List.getElem?_eq_none (by rwa [length_recompute])]

/-- Refreshing stores the legs at the stale indexes. -/
theorem refresh_eq_storeAll (limits : Limits α) {id : WaypointId} {waypoints : List (Waypoint α)}
    {changed : Nat} (hchanged : waypoints.findIdx? (·.target.id == id) = some changed)
    (hlong : 2 ≤ waypoints.length) :
    refresh limits id waypoints = storeAll limits waypoints (stale waypoints changed) := by
  refine List.ext_getElem? ?_
  intro i
  rw [getElem?_refresh limits hchanged hlong, getElem?_storeAll, getElem?_recompute]
  cases hw : waypoints[i]? with
  | none => rw [getElem?_placed, hw, Option.map_none, Option.map_none, Option.map_none, ite_self]
  | some w =>
      obtain ⟨p, hp, rfl⟩ := exists_placed hw
      have hstale : i ∈ stale waypoints changed ↔
          (isTouched waypoints.length changed i || p.here.leg.peer != p.peer) = true := by
        rw [mem_stale_iff hw, peer_eq_neighbour hp, Bool.or_eq_true, bne_iff_ne]
      simp only [hp, Option.map_some, refreshed, hstale]
      split
      · rfl
      · rfl

end FlightPlan.Legs
