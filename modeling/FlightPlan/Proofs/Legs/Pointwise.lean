import FlightPlan.Proofs.Legs.InPlace

/-!
# `FlightPlan.Proofs.Legs.Pointwise`: what is stored at each index

Which leg a waypoint reports is said here by look-ups in the sequence alone. Every waypoint but the
last reports the leg that leaves it, and the last of two or more reports the leg that arrives at it
(`Reports`). This is what `Placed.ends` computes (`reports_iff_ends`), so speed and course of a
computed leg follow from its two targets (`leg_of_reports`).

`StoresLeg` lists what a full computation leaves at an index, one field for each part of the leg.
`recompute_by_index` proves it of every index of every sequence, short ones and repeated
identifiers included. It also says that storing the legs one after the other in the sequence
itself comes out the same, and that the legs which were there before decide nothing.
-/

set_option autoImplicit false

namespace FlightPlan.Legs

section
variable {α : Type}

/-- The waypoint at an index reports the leg between two targets. -/
inductive Reports (waypoints : List (Waypoint α)) : Nat → Target α → Target α → Prop where
  /-- A waypoint that another follows reports the leg to that one. -/
  | leaving {i : Nat} {v w : Waypoint α} (hv : waypoints[i]? = some v)
      (hw : waypoints[i + 1]? = some w) : Reports waypoints i v.target w.target
  /-- The last waypoint reports the leg from the one before it. -/
  | arriving {i : Nat} {v w : Waypoint α} (hv : waypoints[i]? = some v)
      (hw : waypoints[i + 1]? = some w) (hlast : waypoints.length = i + 2) :
      Reports waypoints (i + 1) v.target w.target

/-- There is a waypoint at an index that reports a leg. -/
theorem Reports.exists_getElem? {waypoints : List (Waypoint α)} {i : Nat} {origin goal : Target α}
    (h : Reports waypoints i origin goal) : ∃ w, waypoints[i]? = some w := by
  cases h with
  | leaving hv hw => exact ⟨_, hv⟩
  | arriving hv hw hlast => exact ⟨_, hw⟩

/-- Each waypoint of two or more reports a leg. -/
theorem exists_reports {waypoints : List (Waypoint α)} (hlong : 2 ≤ waypoints.length) {i : Nat}
    (hi : i < waypoints.length) : ∃ origin goal, Reports waypoints i origin goal := by
  by_cases hlast : i + 1 < waypoints.length
  · exact ⟨_, _, .leaving (List.getElem?_eq_getElem hi) (List.getElem?_eq_getElem hlast)⟩
  · obtain ⟨j, rfl⟩ : ∃ j, i = j + 1 := ⟨i - 1, by omega⟩
    have hj : j < waypoints.length := by omega
    exact ⟨_, _, .arriving (List.getElem?_eq_getElem hj) (List.getElem?_eq_getElem hi) (by omega)⟩

/-- The leg that a waypoint reports is the one between the ends of its placing. -/
theorem reports_iff_ends {waypoints : List (Waypoint α)} {i : Nat} {p : Placed α}
    (hp : (placed waypoints)[i]? = some p) {origin goal : Target α} :
    Reports waypoints i origin goal ↔ p.ends = some (origin, goal) := by
  obtain ⟨hhere, hbefore, hbehind⟩ := getElem?_placed_eq_some.mp hp
  constructor
  · intro h
    cases h with
    | leaving hv hw =>
        obtain rfl := Option.some.inj (hhere.symm.trans hv)
        have hnext : p.next = some _ := hbehind.symm.trans (behind_eq_some.mpr ⟨_, hw, rfl⟩)
        simp only [Placed.ends, hnext]
    | arriving hv hw hlast =>
        obtain rfl := Option.some.inj (hhere.symm.trans hw)
        have hnext : p.next = none := hbehind.symm.trans (behind_eq_none.mpr (by omega))
        have hprevious : p.previous = some _ :=
          hbefore.symm.trans (before_eq_some.mpr ⟨_, _, rfl, hv, rfl⟩)
        simp only [Placed.ends, hnext, hprevious]
  · intro hends
    unfold Placed.ends at hends
    cases hnext : p.next with
    | some next =>
        rw [hnext] at hends
        obtain ⟨rfl, rfl⟩ := Prod.mk.inj (Option.some.inj hends)
        obtain ⟨w, hw, rfl⟩ := behind_eq_some.mp (hbehind.trans hnext)
        exact .leaving hhere hw
    | none =>
        cases hprevious : p.previous with
        | none => simp [hnext, hprevious] at hends
        | some previous =>
            rw [hnext, hprevious] at hends
            obtain ⟨rfl, rfl⟩ := Prod.mk.inj (Option.some.inj hends)
            obtain ⟨j, v, rfl, hv, rfl⟩ := before_eq_some.mp (hbefore.trans hprevious)
            have hlast := behind_eq_none.mp (hbehind.trans hnext)
            have hlength := (List.getElem?_eq_some_iff.mp hhere).1
            exact .arriving hv hhere (by omega)

end

variable {α : Type} [Scalar α] [Geodesy α]

/-- A computed waypoint is the one that was placed at its index, with its leg computed. -/
theorem exists_placed_of_recompute {limits : Limits α} {waypoints : List (Waypoint α)} {i : Nat}
    {c : Waypoint α} (hc : (recompute limits waypoints)[i]? = some c) :
    ∃ p : Placed α, (placed waypoints)[i]? = some p ∧ p.computed limits = c := by
  rwa [getElem?_recompute, Option.map_eq_some_iff] at hc

/-- Speed and course of a computed leg are those between its two targets. -/
theorem leg_of_reports {limits : Limits α} {waypoints : List (Waypoint α)} {i : Nat}
    {c : Waypoint α} (hc : (recompute limits waypoints)[i]? = some c) {origin goal : Target α}
    (h : Reports waypoints i origin goal) :
    c.leg.speed = Speed.required origin goal
      ∧ c.leg.course = Heading.toward origin.position goal.position := by
  obtain ⟨p, hp, rfl⟩ := exists_placed_of_recompute hc
  have hends := (reports_iff_ends hp).mp h
  simp [Placed.leg, Placed.speed?, Placed.course?, hends]

/-- The peer of a computed leg is the neighbour it was computed with. -/
theorem peer_of_recompute {limits : Limits α} {waypoints : List (Waypoint α)} {i : Nat}
    {c : Waypoint α} (hc : (recompute limits waypoints)[i]? = some c) :
    c.leg.peer = (neighbour? waypoints i).map Target.id := by
  obtain ⟨p, hp, rfl⟩ := exists_placed_of_recompute hc
  exact peer_eq_neighbour hp

/-- Where `w` is at index `i` of a sequence, the sequence computed from it holds `c`. -/
structure StoresLeg (limits : Limits α) (waypoints computed : List (Waypoint α)) (i : Nat)
    (w c : Waypoint α) : Prop where
  /-- What the planner decided is kept. -/
  target : c.target = w.target
  /-- A waypoint on its own has no leg. -/
  alone : waypoints.length < 2 → c.leg.speed = 0.0 ∧ c.leg.course = 0.0 ∧ c.leg.peer = none
  /-- A waypoint that another follows has the leg to that one. -/
  leaving : ∀ next, waypoints[i + 1]? = some next →
    c.leg.speed = Speed.required w.target next.target
      ∧ c.leg.course = Heading.toward w.target.position next.target.position
      ∧ c.leg.peer = some next.target.id
  /-- The last waypoint has the leg from the one before it, and continues its course. -/
  arriving : ∀ j previous, i = j + 1 → waypoints.length = i + 1 → waypoints[j]? = some previous →
    c.leg.speed = Speed.required previous.target w.target
      ∧ computed[j]?.map (·.leg.course) = some c.leg.course
      ∧ c.leg.peer = some previous.target.id
  /-- The speed is marked when it is in the feasible tier. -/
  feasible : c.leg.feasible = true ↔ limits.tier c.leg.speed = .feasible
  /-- An automatic heading is the course. -/
  auto : w.target.headingMode = .auto → c.leg.heading = c.leg.course
  /-- A manual heading is kept, as a heading. -/
  manual : ∀ degrees, w.target.headingMode = .manual degrees →
    c.leg.heading = Heading.normalize degrees

/-- A full computation stores at each index what the look-ups there say. -/
theorem storesLeg_recompute {limits : Limits α} {waypoints : List (Waypoint α)} {i : Nat}
    {w c : Waypoint α} (hw : waypoints[i]? = some w)
    (hc : (recompute limits waypoints)[i]? = some c) :
    StoresLeg limits waypoints (recompute limits waypoints) i w c := by
  have hpeer := peer_of_recompute hc
  obtain ⟨p, hp, rfl⟩ := exists_placed_of_recompute hc
  obtain ⟨hhere, hbefore, hbehind⟩ := getElem?_placed_eq_some.mp hp
  obtain rfl := Option.some.inj (hhere.symm.trans hw)
  have hi := (List.getElem?_eq_some_iff.mp hw).1
  refine ⟨rfl, ?_, ?_, ?_, beq_iff_eq, ?_, ?_⟩
  · intro hshort
    obtain rfl : i = 0 := by omega
    have hnext : p.next = none := hbehind.symm.trans (behind_eq_none.mpr (by omega))
    have hprevious : p.previous = none := hbefore.symm
    simp [Placed.leg, Placed.speed?, Placed.course?, Placed.ends, Placed.peer, hnext, hprevious]
  · intro next hnext
    obtain ⟨hspeed, hcourse⟩ := leg_of_reports hc (.leaving hw hnext)
    refine ⟨hspeed, hcourse, ?_⟩
    rw [hpeer, neighbour?, behind, hnext]
    rfl
  · rintro j previous rfl hlast hprevious
    obtain ⟨hspeed, hcourse⟩ := leg_of_reports hc (.arriving hprevious hw (by omega))
    refine ⟨hspeed, ?_, ?_⟩
    · -- The waypoint before the last reports the same leg, which leaves it.
      obtain ⟨q, hq, rfl⟩ := exists_placed hprevious
      have hd : (recompute limits waypoints)[j]? = some (q.computed limits) := by
        rw [getElem?_recompute, hq, Option.map_some]
      rw [hd, Option.map_some, (leg_of_reports hd (.leaving hprevious hw)).2, hcourse]
    · have hnone : behind waypoints (j + 1) = none := behind_eq_none.mpr (by omega)
      rw [hpeer, neighbour?, hnone, Option.none_or, before, hprevious]
      rfl
  · intro hmode
    simp [Placed.leg, hmode, HeadingMode.effective]
  · intro degrees hmode
    simp [Placed.leg, hmode, HeadingMode.effective]

/-- Legs stored in the sequence itself, one index after the other, are the legs of a full
computation. It keeps the length, stores at every index the leg that follows from the targets there
and beside it, and makes the same of all sequences with the same targets. -/
theorem recompute_by_index (limits : Limits α) (waypoints : List (Waypoint α)) :
    storeAll limits waypoints (List.range waypoints.length) = recompute limits waypoints
      ∧ (recompute limits waypoints).length = waypoints.length
      ∧ (∀ i w c, waypoints[i]? = some w → (recompute limits waypoints)[i]? = some c →
          StoresLeg limits waypoints (recompute limits waypoints) i w c)
      ∧ ∀ other : List (Waypoint α),
          other.map Waypoint.target = waypoints.map Waypoint.target →
            recompute limits other = recompute limits waypoints :=
  ⟨storeAll_range limits waypoints, length_recompute limits waypoints,
    fun _ _ _ hw hc => storesLeg_recompute hw hc, fun _ h => recompute_congr limits h⟩

/-- The end of the corner is computed from the one before it, and points the same way. -/
theorem recompute_by_index_corner :
    ∃ w c d, corner[2]? = some w ∧ (recompute Limits.standard corner)[2]? = some c
      ∧ (recompute Limits.standard corner)[1]? = some d
      ∧ StoresLeg Limits.standard corner (recompute Limits.standard corner) 2 w c
      ∧ c.leg.peer = some (idOf 2) ∧ c.leg.course = d.leg.course
      ∧ recompute Limits.standard (recompute Limits.standard corner)
          = recompute Limits.standard corner := by
  obtain ⟨-, -, hstores, hcongr⟩ := recompute_by_index Limits.standard corner
  have hw : corner[2]? = some (waypointOf 3 35.0009 51.0011 120.0 40.0) := rfl
  have hv : corner[1]? = some (waypointOf 2 35.0009 51.0 100.0 10.0) := rfl
  obtain ⟨-, hcourse, hpeer⟩ := (hstores 2 _ _ hw rfl).arriving 1 _ rfl rfl hv
  exact ⟨_, _, _, hw, rfl, rfl, hstores 2 _ _ hw rfl, hpeer, (Option.some.inj hcourse).symm,
    hcongr _ (map_target_recompute Limits.standard corner)⟩

end FlightPlan.Legs
