import FlightPlan.Proofs.Legs.Pointwise
import Mathlib.Data.Set.Card

/-!
# `FlightPlan.Proofs.Legs.Untouched`: how little refreshing does

Refreshing stores a leg where it is stale, and leaves every other waypoint alone
(`getElem?_refresh_eq_ite`). In any sequence, stale are the legs of the changed waypoint, of the
one before it and, right behind it, of the last one, and of the others those whose recorded
neighbour is another one.

After one change of a current sequence, hardly any recorded neighbour is another one. Two
waypoints that follow each other away from the change did so before it, unless the changed
waypoint stood between them (`AgreeBut.behind_eq_or`). So the only stale leg that is not next to
the change or at the end is that of the waypoint which used to be before the changed one
(`AgreeBut.stale_cases`). Together these are four places at most (`refresh_stores_few`), and
taking the last but one waypoint to the front needs all four (`refresh_stores_four`).
-/

set_option autoImplicit false

namespace FlightPlan.Legs

section
variable {α : Type}

/-! ### Neighbours among the other waypoints -/

/-- The other waypoints, cut at one of them. -/
theorem others_eq_append {id : WaypointId} {waypoints : List (Waypoint α)} {i : Nat}
    {v : Waypoint α} (hv : waypoints[i]? = some v) (hvid : v.target.id ≠ id) :
    others id waypoints
      = others id (waypoints.take i) ++ v :: others id (waypoints.drop (i + 1)) := by
  obtain ⟨hi, rfl⟩ := List.getElem?_eq_some_iff.mp hv
  have hcut : waypoints = waypoints.take i ++ waypoints[i] :: waypoints.drop (i + 1) := by
    rw [← List.drop_eq_getElem_cons hi, List.take_append_drop]
  have hfilter := congrArg (others id) hcut
  rwa [others, others, List.filter_append, List.filter_cons_of_pos (by simpa using hvid)]
    at hfilter

/-- What follows an other waypoint among the others is the same in both sequences. -/
theorem AgreeBut.others_drop_eq {id : WaypointId} {old new : List (Waypoint α)}
    (h : AgreeBut id old new) {i k : Nat} {v : Waypoint α} (hi : old[i]? = some v)
    (hk : new[k]? = some v) (hvid : v.target.id ≠ id) :
    others id (old.drop (i + 1)) = others id (new.drop (k + 1)) := by
  have hold := others_eq_append hi hvid
  have hnew := others_eq_append hk hvid
  -- `v` comes only once, so the two cuts are at the same place.
  have hnodup : (others id new).Nodup := h.distinct_second.of_map.filter _
  rw [hnew] at hnodup
  have hnot : v ∉ others id (new.take k) ∧ v ∉ others id (new.drop (k + 1)) := by
    have hmiddle := List.nodup_middle.mp hnodup
    rw [List.nodup_cons, List.mem_append, not_or] at hmiddle
    exact hmiddle.1
  have hcuts := hnew.symm.trans (h.others_eq.symm.trans hold)
  exact ((List.append_cons_inj_of_notMem hnot.1 hnot.2).mp hcuts).2.2.symm

/-- Two waypoints that follow each other away from the change did so before it, unless the changed
waypoint stood between them. -/
theorem AgreeBut.behind_eq_or {id : WaypointId} {old new : List (Waypoint α)}
    (h : AgreeBut id old new) {i k : Nat} {v w : Waypoint α} (hi : old[i]? = some v)
    (hv : new[k]? = some v) (hw : new[k + 1]? = some w) (hvid : v.target.id ≠ id)
    (hwid : w.target.id ≠ id) :
    old[i + 1]? = some w ∨ ∃ u, old[i + 1]? = some u ∧ u.target.id = id := by
  have hdrop := h.others_drop_eq hi hv hvid
  obtain ⟨hk, rfl⟩ := List.getElem?_eq_some_iff.mp hw
  rw [List.drop_eq_getElem_cons hk, others, others,
    List.filter_cons_of_pos (by simpa using hwid)] at hdrop
  cases hu : old[i + 1]? with
  | none =>
      -- Something follows `v` in the new sequence, so something did in the old one.
      rw [List.drop_eq_nil_of_le (List.getElem?_eq_none_iff.mp hu)] at hdrop
      simp at hdrop
  | some u =>
      by_cases huid : u.target.id = id
      · exact Or.inr ⟨u, rfl, huid⟩
      · obtain ⟨hi', rfl⟩ := List.getElem?_eq_some_iff.mp hu
        rw [List.drop_eq_getElem_cons hi', List.filter_cons_of_pos (by simpa using huid)] at hdrop
        exact Or.inl (congrArg some (List.cons.inj hdrop).1)

/-- The waypoint at an index of the new sequence was right before the changed one in the old. -/
def WasBefore (id : WaypointId) (old new : List (Waypoint α)) (k : Nat) : Prop :=
  ∃ (i : Nat) (v u : Waypoint α),
    new[k]? = some v ∧ old[i]? = some v ∧ old[i + 1]? = some u ∧ u.target.id = id

/-- Only one waypoint was. -/
theorem AgreeBut.wasBefore_unique {id : WaypointId} {old new : List (Waypoint α)}
    (h : AgreeBut id old new) {k l : Nat} (hk : WasBefore id old new k)
    (hl : WasBefore id old new l) : k = l := by
  obtain ⟨i, v, u, hv, hiv, hu, huid⟩ := hk
  obtain ⟨j, v', u', hv', hjv', hu', huid'⟩ := hl
  have hij : i + 1 = j + 1 := index_eq_of_id_eq h.distinct_first hu hu' (huid.trans huid'.symm)
  obtain rfl := Nat.succ.inj hij
  obtain rfl := Option.some.inj (hiv.symm.trans hjv')
  exact index_eq_of_id_eq h.distinct_second hv hv' rfl

end

variable {α : Type} [Scalar α] [Geodesy α]

/-- Refreshing puts the leg of a full computation where a leg is stale, and changes nothing
elsewhere. -/
theorem getElem?_refresh_eq_ite (limits : Limits α) {id : WaypointId}
    {waypoints : List (Waypoint α)} {changed : Nat}
    (hchanged : waypoints.findIdx? (·.target.id == id) = some changed)
    (hlong : 2 ≤ waypoints.length) (i : Nat) :
    (refresh limits id waypoints)[i]?
      = if i ∈ stale waypoints changed then (recompute limits waypoints)[i]?
        else waypoints[i]? := by
  rw [refresh_eq_storeAll limits hchanged hlong, getElem?_storeAll]

/-- After one change of a current sequence, a leg can be stale at the changed waypoint, before it,
at the end, and where the changed waypoint used to be next. -/
theorem AgreeBut.stale_cases {limits : Limits α} {id : WaypointId} {old new : List (Waypoint α)}
    (h : AgreeBut id old new) (hcurrent : recompute limits old = old) {changed k : Nat}
    (hchanged : new.findIdx? (·.target.id == id) = some changed)
    (hk : k ∈ stale new changed) :
    k = changed ∨ k = changed - 1 ∨ k = new.length - 1 ∨ WasBefore id old new k := by
  by_cases hat : k = changed
  · exact Or.inl hat
  by_cases hbefore : k + 1 = changed
  · exact Or.inr (Or.inl (by omega))
  by_cases hlast : k + 1 = new.length
  · exact Or.inr (Or.inr (Or.inl (by omega)))
  have hlength : k < new.length := List.mem_range.mp (List.mem_of_mem_filter hk)
  have hlength' : k + 1 < new.length := by omega
  have hv : new[k]? = some new[k] := List.getElem?_eq_getElem hlength
  have hw : new[k + 1]? = some new[k + 1] := List.getElem?_eq_getElem hlength'
  have hvid := id_ne_of_index_ne h.distinct_second hchanged hv hat
  have hwid := id_ne_of_index_ne h.distinct_second hchanged hw hbefore
  -- Neither this waypoint nor the next one is the changed one, so both were there before.
  obtain ⟨i, hi⟩ := List.getElem?_of_mem (h.mem_first (List.mem_of_getElem? hv) hvid)
  rcases h.behind_eq_or hi hv hw hvid hwid with hnext | ⟨u, hu, huid⟩
  · -- The waypoint behind is the one that the leg was computed with, so the leg is not stale.
    have hcomputed : (recompute limits old)[i]? = some new[k] := by rw [hcurrent, hi]
    have hpeer := peer_of_recompute hcomputed
    have hsame : neighbour? old i = neighbour? new k := by
      rw [neighbour?, neighbour?, behind, behind, hnext, hw]
      rfl
    rw [hsame] at hpeer
    rw [mem_stale_iff hv, isTouched_iff] at hk
    simp [hat, hbefore, hlast, hpeer] at hk
  · exact Or.inr (Or.inr (Or.inr ⟨i, _, u, hv, hi, hu, huid⟩))

/-- So there are four such places at most. -/
theorem AgreeBut.encard_stale_le {limits : Limits α} {id : WaypointId}
    {old new : List (Waypoint α)} (h : AgreeBut id old new)
    (hcurrent : recompute limits old = old) {changed : Nat}
    (hchanged : new.findIdx? (·.target.id == id) = some changed) :
    {k : Nat | k ∈ stale new changed}.encard ≤ 4 := by
  -- Where nothing was before the changed waypoint, any index does for `e`.
  obtain ⟨e, he⟩ : ∃ e, ∀ k, WasBefore id old new k → k = e := by
    by_cases hsome : ∃ e, WasBefore id old new e
    · obtain ⟨e, he⟩ := hsome
      exact ⟨e, fun k hk => h.wasBefore_unique hk he⟩
    · exact ⟨0, fun k hk => absurd ⟨k, hk⟩ hsome⟩
  have hsub : {k : Nat | k ∈ stale new changed}
      ⊆ (({changed, changed - 1, new.length - 1, e} : Finset Nat) : Set Nat) := by
    intro k hk
    rcases h.stale_cases hcurrent hchanged hk with rfl | rfl | rfl | hwas
    · simp
    · simp
    · simp
    · simp [he k hwas]
  calc
    {k : Nat | k ∈ stale new changed}.encard
      ≤ (({changed, changed - 1, new.length - 1, e} : Finset Nat) : Set Nat).encard :=
        Set.encard_le_encard hsub
    _ ≤ 4 := by
        rw [Set.encard_coe_eq_coe_finsetCard]
        exact_mod_cast Finset.card_le_four

/-- After one change of a current sequence without repeated identifiers, refreshing changes four
waypoints at most. -/
theorem OneChange.encard_refreshed_le {limits : Limits α} {id : WaypointId}
    {old new : List (Waypoint α)} (hchange : OneChange old id new) (hdistinct : (ids old).Nodup)
    (hcurrent : recompute limits old = old) :
    {k : Nat | (refresh limits id new)[k]? ≠ new[k]?}.encard ≤ 4 := by
  obtain ⟨changed, hchanged⟩ : ∃ changed,
      new.findIdx? (·.target.id == id) = some changed := by
    obtain ⟨w, hw, hid⟩ := hchange.exists_mem
    rw [← Option.isSome_iff_exists, List.findIdx?_isSome, List.any_eq_true]
    exact ⟨w, hw, by simp [hid]⟩
  rcases Nat.lt_or_ge new.length 2 with hshort | hlong
  · -- In a sequence too short for a leg there is one place at most.
    have hsub : {k : Nat | (refresh limits id new)[k]? ≠ new[k]?} ⊆ {0} := by
      intro k hk
      by_contra hzero
      have hk' : new.length ≤ k := by
        have hpositive : k ≠ 0 := hzero
        omega
      exact hk (by rw [List.getElem?_eq_none hk', List.getElem?_eq_none (by rwa [length_refresh])])
    calc
      {k : Nat | (refresh limits id new)[k]? ≠ new[k]?}.encard
          ≤ ({0} : Set Nat).encard := Set.encard_le_encard hsub
      _ ≤ 4 := by
          rw [Set.encard_singleton]
          decide
  · have hsub : {k : Nat | (refresh limits id new)[k]? ≠ new[k]?}
        ⊆ {k : Nat | k ∈ stale new changed} := by
      intro k hk
      show k ∈ stale new changed
      by_contra hkept
      exact hk (by rw [getElem?_refresh_eq_ite limits hchanged hlong, if_neg hkept])
    exact (Set.encard_le_encard hsub).trans
      ((hchange.agreeBut hdistinct).encard_stale_le hcurrent hchanged)

/-- Refreshing two waypoints or more for the one found at an index keeps the length and all
targets, and computes the legs at that index, before it, of the last waypoint right behind it, and
where the recorded neighbour is another one. Every other waypoint is left as it is. After one
change of a current sequence, four waypoints at most come out other than they went in. -/
theorem refresh_stores_few (limits : Limits α) :
    (∀ (waypoints : List (Waypoint α)) (id : WaypointId) (changed : Nat),
        2 ≤ waypoints.length → waypoints.findIdx? (·.target.id == id) = some changed →
          (refresh limits id waypoints).length = waypoints.length
            ∧ (refresh limits id waypoints).map Waypoint.target = waypoints.map Waypoint.target
            ∧ ∀ i w, waypoints[i]? = some w →
                (refresh limits id waypoints)[i]?
                  = if (i = changed ∨ i + 1 = changed
                        ∨ (changed + 2 = waypoints.length ∧ i + 1 = waypoints.length))
                      ∨ w.leg.peer ≠ (neighbour? waypoints i).map Target.id
                    then (recompute limits waypoints)[i]? else some w)
      ∧ ∀ (old new : List (Waypoint α)) (id : WaypointId),
          (ids old).Nodup → recompute limits old = old → OneChange old id new →
            {k : Nat | (refresh limits id new)[k]? ≠ new[k]?}.encard ≤ 4 := by
  refine ⟨?_, fun _ _ _ hdistinct hcurrent hchange =>
    hchange.encard_refreshed_le hdistinct hcurrent⟩
  intro waypoints id changed hlong hchanged
  refine ⟨length_refresh limits id waypoints, map_target_refresh limits id waypoints, ?_⟩
  intro i w hw
  rw [getElem?_refresh_eq_ite limits hchanged hlong, hw]
  simp only [mem_stale_iff hw, isTouched_iff]

/-- Six waypoints in one place. -/
def queue : List (Waypoint Float) :=
  [1, 2, 3, 4, 5, 6].map fun n => waypointOf n 35.0 51.0 100.0 0.0

/-- The last but one of the six is taken behind the first. The two that it is put between, the one
that it was behind, and the last all have another neighbour then, so all four change. -/
theorem refresh_stores_four :
    let old := recompute Limits.standard queue
    let new := Plan.relocate old 4 1
    (ids old).Nodup ∧ recompute Limits.standard old = old ∧ OneChange old (idOf 5) new
      ∧ {k : Nat | (refresh Limits.standard (idOf 5) new)[k]? ≠ new[k]?}.encard ≤ 4
      ∧ ∀ k ∈ [0, 1, 4, 5], (refresh Limits.standard (idOf 5) new)[k]? ≠ new[k]? := by
  intro old new
  have hdistinct : (ids old).Nodup := by
    rw [ids_congr (map_target_recompute Limits.standard queue)]
    decide
  have hcurrent : recompute Limits.standard old = old := recompute_recompute Limits.standard queue
  have hchange : OneChange old (idOf 5) new :=
    OneChange.move (show old[4]? = some _ from rfl) (by rw [length_recompute]; decide)
  have hpeers : ∀ k ∈ [0, 1, 4, 5],
      (refresh Limits.standard (idOf 5) new)[k]?.map (·.leg.peer) ≠ new[k]?.map (·.leg.peer) := by
    decide
  refine ⟨hdistinct, hcurrent, hchange,
    (refresh_stores_few Limits.standard).2 old new (idOf 5) hdistinct hcurrent hchange, ?_⟩
  intro k hk hsame
  exact hpeers k hk (congrArg (Option.map (·.leg.peer)) hsame)

end FlightPlan.Legs
