import FlightPlan.Proofs.Legs.OneChange
import FlightPlan.Proofs.Legs.Placed

/-!
# `FlightPlan.Proofs.Legs.Refresh`: refreshing is enough

`Legs.refresh` computes a few legs anew after a change: those that `isTouched`
names, and those whose recorded neighbour is not the one they have. This file
proves that no other leg needs it.

A waypoint is current in a sequence when its leg is the one a full computation
would give it (`IsCurrent`). The step from one change to a kept leg is
`AgreeBut.ends_eq`: a waypoint away from the change whose recorded neighbour is
still its neighbour has the ends that its leg was computed between. Two things
could go wrong there. The neighbour could be the changed waypoint, which
`isTouched` rules out, also for the last waypoint, which looks backward. Or the
neighbour could have come to the other side, because the waypoint became the
last or ceased to be it. Then the two would follow each other the other way
around, which one change elsewhere cannot bring about.

* `AgreeBut.refresh_eq_recompute`: refreshing computes what a full computation
  does, if the waypoints away from the change were current.
* `refresh_keeps_current`: after one change of any kind, refreshing makes the
  changed waypoint current and keeps current every waypoint that was.
-/

set_option autoImplicit false

namespace FlightPlan.Legs

section
variable {α : Type}

/-- A waypoint at another index than the changed one is the one that had its identifier
before. -/
theorem AgreeBut.eq_of_index_ne {id : WaypointId} {old new : List (Waypoint α)}
    (h : AgreeBut id old new) {changed j : Nat}
    (hchanged : new.findIdx? (·.target.id == id) = some changed) (hj : j ≠ changed)
    {v w : Waypoint α} (hv : v ∈ old) (hw : new[j]? = some w)
    (hid : v.target.id = w.target.id) : v = w ∧ w.target.id ≠ id := by
  have hwid := id_ne_of_index_ne h.distinct_second hchanged hw hj
  exact ⟨h.eq_of_id_eq hv (List.mem_of_getElem? hw) hid hwid, hwid⟩

/-- Where the change of the waypoint `id` does not reach, and the recorded neighbour is the
one there is, the leg has the ends it had before the change. -/
theorem AgreeBut.ends_eq {id : WaypointId} {old new : List (Waypoint α)}
    (h : AgreeBut id old new) {i k changed : Nat} {p q : Placed α}
    (hp : (placed old)[i]? = some p) (hq : (placed new)[k]? = some q)
    (hhere : p.here = q.here) (hne : q.here.target.id ≠ id)
    (hchanged : new.findIdx? (·.target.id == id) = some changed)
    (huntouched : isTouched new.length changed k = false) (hpeer : p.peer = q.peer) :
    p.ends = q.ends := by
  obtain ⟨hpi, hpbefore, hpbehind⟩ := getElem?_placed_eq_some.mp hp
  obtain ⟨hqk, hqbefore, hqbehind⟩ := getElem?_placed_eq_some.mp hq
  have hk : k < new.length := (List.getElem?_eq_some_iff.mp hqk).1
  rw [hhere] at hpi
  simp only [isTouched, Bool.or_eq_false_iff, beq_eq_false_iff_ne, ne_eq,
    Bool.and_eq_false_iff] at huntouched
  obtain ⟨⟨-, hbefore⟩, hlast⟩ := huntouched
  rw [Placed.peer_eq_or, Placed.peer_eq_or] at hpeer
  -- The recorded neighbour was on one side and is on one side now, four cases in all. That
  -- it is not at the changed index makes it the same waypoint before and after.
  cases hpn : p.next with
  | some s =>
      obtain ⟨v, hv, rfl⟩ := behind_eq_some.mp (hpbehind.trans hpn)
      cases hqn : q.next with
      | some t =>
          obtain ⟨w, hw, rfl⟩ := behind_eq_some.mp (hqbehind.trans hqn)
          have hid : v.target.id = w.target.id := by simpa [hpn, hqn] using hpeer
          obtain ⟨rfl, -⟩ :=
            h.eq_of_index_ne hchanged hbefore (List.mem_of_getElem? hv) hw hid
          simp [Placed.ends, hpn, hqn, hhere]
      | none =>
          -- The waypoint became the last, and its next one would now be before it.
          have hklast := behind_eq_none.mp (hqbehind.trans hqn)
          cases hqp : q.previous with
          | none => simp [hpn, hqn, hqp] at hpeer
          | some t =>
              obtain ⟨j, w, rfl, hw, rfl⟩ := before_eq_some.mp (hqbefore.trans hqp)
              have hid : v.target.id = w.target.id := by simpa [hpn, hqn, hqp] using hpeer
              obtain ⟨rfl, hvid⟩ :=
                h.eq_of_index_ne hchanged (by omega) (List.mem_of_getElem? hv) hw hid
              exact (h.not_swapped hpi hv hw hqk hne hvid).elim
  | none =>
      cases hpp : p.previous with
      | none =>
          cases hqn : q.next <;> cases hqp : q.previous <;>
            simp [hpn, hpp, hqn, hqp] at hpeer
          simp [Placed.ends, hpn, hpp, hqn, hqp]
      | some s =>
          obtain ⟨l, v, rfl, hv, rfl⟩ := before_eq_some.mp (hpbefore.trans hpp)
          cases hqn : q.next with
          | some t =>
              -- The waypoint ceased to be the last, and the one before it would be next.
              obtain ⟨w, hw, rfl⟩ := behind_eq_some.mp (hqbehind.trans hqn)
              have hid : v.target.id = w.target.id := by simpa [hpn, hpp, hqn] using hpeer
              obtain ⟨rfl, hvid⟩ :=
                h.eq_of_index_ne hchanged hbefore (List.mem_of_getElem? hv) hw hid
              exact (h.not_swapped hv hpi hqk hw hvid hne).elim
          | none =>
              have hklast := behind_eq_none.mp (hqbehind.trans hqn)
              cases hqp : q.previous with
              | none => simp [hpn, hpp, hqn, hqp] at hpeer
              | some t =>
                  obtain ⟨j, w, rfl, hw, rfl⟩ := before_eq_some.mp (hqbefore.trans hqp)
                  have hid : v.target.id = w.target.id := by
                    simpa [hpn, hpp, hqn, hqp] using hpeer
                  obtain ⟨rfl, -⟩ :=
                    h.eq_of_index_ne hchanged (by omega) (List.mem_of_getElem? hv) hw hid
                  simp [Placed.ends, hpn, hpp, hqn, hqp, hhere]

end

variable {α : Type} [Scalar α] [Geodesy α]

/-! ### Refreshing by index -/

/-- A sequence too short for a leg is recomputed whole. -/
theorem refresh_of_length_lt_two (limits : Limits α) (id : WaypointId)
    {waypoints : List (Waypoint α)} (h : waypoints.length < 2) :
    refresh limits id waypoints = recompute limits waypoints := by
  unfold refresh
  split
  · rfl
  · exact if_pos h

/-- A sequence without the waypoint `id` is recomputed whole. -/
theorem refresh_of_findIdx?_eq_none (limits : Limits α) {id : WaypointId}
    {waypoints : List (Waypoint α)} (h : waypoints.findIdx? (·.target.id == id) = none) :
    refresh limits id waypoints = recompute limits waypoints := by
  rw [refresh, h]

/-- At each index refreshing stores what is stored there between its neighbours. -/
theorem getElem?_refresh (limits : Limits α) {id : WaypointId} {waypoints : List (Waypoint α)}
    {changed : Nat} (hchanged : waypoints.findIdx? (·.target.id == id) = some changed)
    (h : 2 ≤ waypoints.length) (i : Nat) :
    (refresh limits id waypoints)[i]?
      = (placed waypoints)[i]?.map (refreshed limits waypoints.length changed i) := by
  rw [refresh, hchanged]
  simp only [if_neg (Nat.not_lt.mpr h)]
  rw [List.getElem?_mapIdx]

/-- Refreshing a leg keeps the target. -/
@[simp] theorem target_refreshed (limits : Limits α) (count changed i : Nat) (p : Placed α) :
    (refreshed limits count changed i p).target = p.here.target := by
  unfold refreshed
  split <;> rfl

/-- Refreshing legs leaves every target as it was. -/
@[simp] theorem map_target_refresh (limits : Limits α) (id : WaypointId)
    (waypoints : List (Waypoint α)) :
    (refresh limits id waypoints).map Waypoint.target = waypoints.map Waypoint.target := by
  unfold refresh
  split
  · exact map_target_recompute limits waypoints
  · split
    · exact map_target_recompute limits waypoints
    · refine List.ext_getElem? ?_
      intro i
      rw [List.getElem?_map, List.getElem?_mapIdx, getElem?_placed, List.getElem?_map]
      cases waypoints[i]? with
      | none => rfl
      | some w => exact congrArg some (target_refreshed ..)

/-- Refreshing neither adds a waypoint nor takes one out. -/
@[simp] theorem length_refresh (limits : Limits α) (id : WaypointId)
    (waypoints : List (Waypoint α)) :
    (refresh limits id waypoints).length = waypoints.length := by
  have h := congrArg List.length (map_target_refresh limits id waypoints)
  rwa [List.length_map, List.length_map] at h

/-! ### Current waypoints -/

/-- The waypoint with an identifier reports the leg that a full computation gives it. -/
def IsCurrent (limits : Limits α) (waypoints : List (Waypoint α)) (id : WaypointId) : Prop :=
  ∃ (i : Nat) (w c : Waypoint α), waypoints[i]? = some w ∧ w.target.id = id
    ∧ (recompute limits waypoints)[i]? = some c ∧ w.leg = c.leg

/-- That is the leg that follows from its neighbours. -/
theorem isCurrent_iff {limits : Limits α} {waypoints : List (Waypoint α)} {id : WaypointId} :
    IsCurrent limits waypoints id ↔
      ∃ (i : Nat) (p : Placed α), (placed waypoints)[i]? = some p ∧ p.here.target.id = id
        ∧ p.here.leg = p.leg limits := by
  constructor
  · rintro ⟨i, w, c, hw, hid, hc, hleg⟩
    obtain ⟨p, hp, rfl⟩ := exists_placed hw
    rw [getElem?_recompute, hp] at hc
    obtain rfl := Option.some.inj hc
    exact ⟨i, p, hp, hid, hleg⟩
  · rintro ⟨i, p, hp, hid, hleg⟩
    have hc : (recompute limits waypoints)[i]? = some (p.computed limits) := by
      rw [getElem?_recompute, hp]
      rfl
    exact ⟨i, p.here, p.computed limits, (getElem?_placed_eq_some.mp hp).1, hid, hc, hleg⟩

/-- In a recomputed sequence every waypoint is current. -/
theorem isCurrent_of_recompute_eq_self {limits : Limits α} {waypoints : List (Waypoint α)}
    (h : recompute limits waypoints = waypoints) {w : Waypoint α} (hw : w ∈ waypoints) :
    IsCurrent limits waypoints w.target.id := by
  obtain ⟨i, hi⟩ := List.getElem?_of_mem hw
  exact ⟨i, w, w, hi, rfl, by rw [h, hi], rfl⟩

/-- Refreshing passes over a waypoint only where computing its leg anew would change
nothing, if it was current before the change. -/
theorem AgreeBut.refreshed_eq_computed {id : WaypointId} {old new : List (Waypoint α)}
    (h : AgreeBut id old new) (limits : Limits α) {changed k : Nat} {q : Placed α}
    (hchanged : new.findIdx? (·.target.id == id) = some changed)
    (hq : (placed new)[k]? = some q)
    (hcurrent : q.here.target.id ≠ id → IsCurrent limits old q.here.target.id) :
    refreshed limits new.length changed k q = q.computed limits := by
  unfold refreshed
  split
  · rfl
  · rename_i hkept
    simp only [Bool.or_eq_true, bne_iff_ne, ne_eq, not_or, not_not, Bool.not_eq_true] at hkept
    obtain ⟨huntouched, hpeer⟩ := hkept
    have hqk := (getElem?_placed_eq_some.mp hq).1
    have hne : q.here.target.id ≠ id := by
      refine id_ne_of_index_ne h.distinct_second hchanged hqk fun hk => ?_
      simp [isTouched, hk] at huntouched
    obtain ⟨i, p, hp, hid, hleg⟩ := isCurrent_iff.mp (hcurrent hne)
    have hpi := (getElem?_placed_eq_some.mp hp).1
    have hhere : p.here = q.here :=
      h.eq_of_id_eq (List.mem_of_getElem? hpi) (List.mem_of_getElem? hqk) hid hne
    have hpeers : p.peer = q.peer := by
      rw [← hpeer, ← hhere, hleg]
      rfl
    have hends := h.ends_eq hp hq hhere hne hchanged huntouched hpeers
    have hlegs : p.leg limits = q.leg limits :=
      Placed.leg_congr limits hends hpeers (by rw [hhere])
    rw [Placed.computed, ← hlegs, ← hleg, hhere]

/-- After refreshing, the changed waypoint and those that were current before are what a
full computation makes of them. -/
theorem AgreeBut.getElem?_refresh_eq {id : WaypointId} {old new : List (Waypoint α)}
    (h : AgreeBut id old new) (limits : Limits α) {k : Nat} {w : Waypoint α}
    (hw : new[k]? = some w)
    (hcurrent : w.target.id ≠ id → IsCurrent limits old w.target.id) :
    (refresh limits id new)[k]? = (recompute limits new)[k]? := by
  cases hchanged : new.findIdx? (·.target.id == id) with
  | none => rw [refresh_of_findIdx?_eq_none limits hchanged]
  | some changed =>
      rcases Nat.lt_or_ge new.length 2 with hshort | hlong
      · rw [refresh_of_length_lt_two limits id hshort]
      · obtain ⟨q, hq, rfl⟩ := exists_placed hw
        rw [getElem?_refresh limits hchanged hlong, getElem?_recompute, hq, Option.map_some,
          Option.map_some, h.refreshed_eq_computed limits hchanged hq hcurrent]

/-- Refreshing computes what a full computation does, if the waypoints away from the change
were current. -/
theorem AgreeBut.refresh_eq_recompute {id : WaypointId} {old new : List (Waypoint α)}
    (h : AgreeBut id old new) (limits : Limits α)
    (hcurrent : ∀ w ∈ new, w.target.id ≠ id → IsCurrent limits old w.target.id) :
    refresh limits id new = recompute limits new := by
  refine List.ext_getElem? ?_
  intro k
  cases hw : new[k]? with
  | some w => exact h.getElem?_refresh_eq limits hw (hcurrent w (List.mem_of_getElem? hw))
  | none =>
      have hk : new.length ≤ k := List.getElem?_eq_none_iff.mp hw
      rw [List.getElem?_eq_none (by rwa [length_refresh]),
        List.getElem?_eq_none (by rwa [length_recompute])]

/-- After refreshing, a waypoint is current if it is the changed one or was current
before. -/
theorem AgreeBut.isCurrent_refresh {id : WaypointId} {old new : List (Waypoint α)}
    (h : AgreeBut id old new) (limits : Limits α) {w : Waypoint α} (hw : w ∈ new)
    (hcurrent : w.target.id ≠ id → IsCurrent limits old w.target.id) :
    IsCurrent limits (refresh limits id new) w.target.id := by
  obtain ⟨k, hk⟩ := List.getElem?_of_mem hw
  obtain ⟨p, hp, rfl⟩ := exists_placed hk
  have hc : (recompute limits new)[k]? = some (p.computed limits) := by
    rw [getElem?_recompute, hp]
    rfl
  have hkept := (h.getElem?_refresh_eq limits hk hcurrent).trans hc
  have hagain := recompute_congr limits (map_target_refresh limits id new)
  exact ⟨k, p.computed limits, p.computed limits, hkept, rfl, by rw [hagain, hc], rfl⟩

/-- One waypoint of a sequence without repeated identifiers is moved, replaced or put in,
and the legs are refreshed for it. Then it is current, every waypoint that was current
before is current again, and if all were, nothing is left for a full computation. -/
theorem refresh_keeps_current (limits : Limits α) {id : WaypointId}
    {old new : List (Waypoint α)} (hdistinct : (ids old).Nodup) (hchange : OneChange old id new) :
    IsCurrent limits (refresh limits id new) id
      ∧ (∀ other, IsCurrent limits old other → IsCurrent limits (refresh limits id new) other)
      ∧ ((∀ w ∈ old, IsCurrent limits old w.target.id) →
          refresh limits id new = recompute limits new) := by
  have hagree := hchange.agreeBut hdistinct
  have hchanged : IsCurrent limits (refresh limits id new) id := by
    obtain ⟨w, hw, rfl⟩ := hchange.exists_mem
    exact hagree.isCurrent_refresh limits hw fun hne => absurd rfl hne
  refine ⟨hchanged, ?_, ?_⟩
  · intro other hcurrent
    by_cases hother : other = id
    · rwa [hother]
    · have ⟨i, w, c, hw, hid, _⟩ := hcurrent
      subst hid
      have hmem := hagree.mem_second (List.mem_of_getElem? hw) hother
      exact hagree.isCurrent_refresh limits hmem fun _ => hcurrent
  · intro hall
    exact hagree.refresh_eq_recompute limits fun w hw hne =>
      hall w (hagree.mem_first hw hne)

/-- The identifier that repeats the last digit of a number. -/
def idOf (n : Nat) : WaypointId :=
  ⟨Vector.replicate 32 (Text.lastHex n)⟩

/-- The waypoint with such an identifier at a place and time. -/
def waypointOf (n : Nat) (lat lon altitude time : Float) : Waypoint Float :=
  Target.toWaypoint ⟨idOf n, "", ⟨lat, lon⟩, altitude, time, .auto⟩

/-- A way north, then east and up. -/
def corner : List (Waypoint Float) :=
  [waypointOf 1 35.0 51.0 100.0 0.0, waypointOf 2 35.0009 51.0 100.0 10.0,
    waypointOf 3 35.0009 51.0011 120.0 40.0]

/-- The end of the corner is dragged to its front: the other two change places as first
and last, and refreshing finds all three legs. -/
theorem refresh_end_to_front :
    (ids (recompute Limits.standard corner)).Nodup
      ∧ OneChange (recompute Limits.standard corner) (idOf 3)
          (Plan.relocate (recompute Limits.standard corner) 2 0)
      ∧ refresh Limits.standard (idOf 3)
            (Plan.relocate (recompute Limits.standard corner) 2 0)
          = recompute Limits.standard (Plan.relocate (recompute Limits.standard corner) 2 0) := by
  have hdistinct : (ids (recompute Limits.standard corner)).Nodup := by
    rw [ids_congr (map_target_recompute Limits.standard corner)]
    decide
  have hchange : OneChange (recompute Limits.standard corner) (idOf 3)
      (Plan.relocate (recompute Limits.standard corner) 2 0) :=
    OneChange.move (show (recompute Limits.standard corner)[2]? = some _ from rfl)
      (by rw [length_recompute]; decide)
  have hcurrent := recompute_recompute Limits.standard corner
  exact ⟨hdistinct, hchange, (refresh_keeps_current Limits.standard hdistinct hchange).2.2
    fun w hw => isCurrent_of_recompute_eq_self hcurrent hw⟩

end FlightPlan.Legs
