import FlightPlan.Proofs.Binary64.Growth
import FlightPlan.Proofs.Command.Generate
import FlightPlan.Proofs.Heading.Normal
import FlightPlan.Proofs.Scatter.Loop

/-!
# `FlightPlan.Proofs.Scatter`: what demonstrations are like

A demonstration is made by settings that nobody has checked. Speeds, times and altitudes among them
can be negative, or no numbers at all. Random numbers can be drawn all the same, unless they are to
be drawn below an infinite radius or altitude band (`drawable`).

Whatever the settings, a leg is given a second at least (`one_le_legTime`). So the times of a
demonstration are numbers that never decrease (`IsSchedule.time_le`), and they increase as long as
a second does not get lost in rounding (`IsSchedule.time_lt`).

`IsDemonstration` puts down what can be told about a demonstration without its random numbers, and
`generates_demonstrations` says that every stream leads to one. By one stream, a longer
demonstration begins like a shorter one, in everything but the heading that the last waypoint of
the shorter one is left with (`take_appointments`).

The command that gives demonstrations has one for every count
(`Command.waypoints_eq_some_generate`).
-/

set_option autoImplicit false

namespace FlightPlan

open Binary64 (le_add lt_add_of_one_le isFinite_of_ne_infinity)

namespace Scatter

variable {s : Scatter Float} {count : Nat} {visits : List (Visit Float)}

/-! ### Settings -/

/-- Whatever time a leg would take, it is given a second. -/
theorem one_le_legTime (s : Scatter Float) (length : Float) : (1.0 : Float) ≤ s.legTime length :=
  Extreme.of_fmax.right _ (by decide)

/-- Only an infinite radius has an infinite reach. -/
theorem isFinite_reach (h : s.radius ≠ 1.0 / 0.0) : Scalar.isFinite s.reach = true := by
  have hleast : (1.0 : Float) ≤ s.reach := Extreme.of_fmax.right _ (by decide)
  have hnonneg : (0.0 : Float) ≤ s.reach := LawfulComparison.le_trans (by decide) hleast
  refine isFinite_of_ne_infinity hnonneg ?_
  -- The reach is one of the two, and neither of them is infinity.
  rcases Extreme.of_fmax.eq_or_eq s.radius (1.0 : Float) with hradius | hone
  · rw [reach, hradius]
    exact h
  · rw [reach, hone]
    decide

/-- Random numbers can be drawn below every radius and band but those that are infinite. -/
theorem drawable (hradius : s.radius ≠ 1.0 / 0.0) (hband : s.altitudeBand ≠ 1.0 / 0.0) :
    s.Drawable where
  reach := isFinite_reach hradius
  turn := by decide
  band h := by
    have hpos : (0.0 : Float) < s.altitudeBand := of_decide_eq_true h
    exact isFinite_of_ne_infinity (LawfulComparison.le_of_lt hpos) hband

/-! ### Times -/

/-- Before a visit there are all visits of lesser index. -/
theorem exists_visit_of_le {i j : Nat} {v : Visit Float} (hij : i ≤ j)
    (hv : visits[j]? = some v) : ∃ u, visits[i]? = some u := by
  have hj := (List.getElem?_eq_some_iff.mp hv).1
  exact ⟨_, List.getElem?_eq_getElem (Nat.lt_of_le_of_lt hij hj)⟩

section
variable [Geodesy Float] {home : Position Float}

/-- From one visit to the next it takes a second at least. -/
theorem one_le_secondsTo (s : Scatter Float) (u : Visit Float) (station : Station Float) :
    (1.0 : Float) ≤ s.secondsTo u station :=
  one_le_legTime s _

namespace IsSchedule

/-- The next visit is not earlier, if the time so far is not negative. -/
theorem time_le_succ (h : IsSchedule s home count visits) {i : Nat} {u v : Visit Float}
    (hu : visits[i]? = some u) (hv : visits[i + 1]? = some v) (hnonneg : (0.0 : Float) ≤ u.time) :
    u.time ≤ v.time := by
  rw [h.later hu hv]
  exact le_add hnonneg (LawfulComparison.le_trans (by decide) (one_le_secondsTo s u v.station))

/-- No time is below that of the start. -/
theorem time_nonneg (h : IsSchedule s home count visits) {i : Nat} {v : Visit Float}
    (hv : visits[i]? = some v) : (0.0 : Float) ≤ v.time := by
  induction i generalizing v with
  | zero =>
      -- The start is at time zero.
      rw [h.first hv]
      exact LawfulComparison.le_refl (by decide)
  | succ i ih =>
      obtain ⟨u, hu⟩ := exists_visit_of_le (Nat.le_succ i) hv
      exact LawfulComparison.le_trans (ih hu) (h.time_le_succ hu hv (ih hu))

/-- Times never decrease, by induction on how far apart the visits are. -/
theorem time_le (h : IsSchedule s home count visits) {i j : Nat} (hij : i ≤ j) {u v : Visit Float}
    (hu : visits[i]? = some u) (hv : visits[j]? = some v) : u.time ≤ v.time := by
  induction hij generalizing v with
  | refl =>
      obtain rfl := Option.some.inj (hu.symm.trans hv)
      exact LawfulComparison.le_refl (LawfulComparison.numbers_of_le (h.time_nonneg hu)).2
  | @step j hij ih =>
      obtain ⟨w, hw⟩ := exists_visit_of_le (Nat.le_succ j) hv
      exact LawfulComparison.le_trans (ih hw) (h.time_le_succ hw hv (h.time_nonneg hw))

/-- Below `2 ^ 53` the next time is greater, and no later one is less than that. -/
theorem time_lt (h : IsSchedule s home count visits) {i j : Nat} (hij : i < j) {u v : Visit Float}
    (hu : visits[i]? = some u) (hv : visits[j]? = some v)
    (hlt : u.time < 9007199254740992.0) : u.time < v.time := by
  -- The visit right behind the first of the two lies between them.
  obtain ⟨w, hw⟩ := exists_visit_of_le hij hv
  have hstep : u.time < w.time := by
    rw [h.later hu hw]
    exact lt_add_of_one_le (h.time_nonneg hu) hlt (one_le_secondsTo s u w.station)
  exact LawfulComparison.lt_of_lt_of_le hstep (h.time_le hij hw hv)

end IsSchedule

/-! ### Waypoints -/

variable {ids : FreshIds} {units : Nat → Float} {waypoints : List (Waypoint Float)}

/-- A waypoint has the target of a visit, except that the last of two or more keeps the heading it
arrives with. -/
theorem target_of_getElem? (h : s.waypoints ids home units count = some waypoints)
    {d : Draft Float} (hd : s.draft home units count = some d) {i : Nat} {w : Waypoint Float}
    (hw : waypoints[i]? = some w) :
    ∃ v, d.visits[i]? = some v
      ∧ w.target = { target ids i v.time v.station with
          headingMode := if 2 ≤ count ∧ i + 1 = count then .manual w.leg.course else .auto } := by
  rw [waypoints_eq_draft, hd] at h
  obtain rfl := Option.some.inj h
  have hcount : ((d.targets ids).map Target.toWaypoint).length = count := by
    rw [List.length_map, Draft.targets, List.length_mapIdx, (isSchedule_draft hd).length]
  rw [Legs.pinTail_recompute, hcount] at hw
  obtain ⟨made, hmade, rfl⟩ := Option.map_eq_some_iff.mp hw
  -- Computing legs leaves the targets of the draft, which are all automatic.
  have htarget : (d.targets ids)[i]? = some made.target := by
    rw [← map_target_planned .standard (d.targets ids), List.getElem?_map, hmade]
    rfl
  rw [Draft.targets, List.getElem?_mapIdx] at htarget
  obtain ⟨v, hv, hvisit⟩ := Option.map_eq_some_iff.mp htarget
  have hauto : made.target.headingMode = .auto := by rw [← hvisit]; rfl
  refine ⟨v, hv, ?_⟩
  rw [hvisit]
  by_cases hlast : 2 ≤ count ∧ i + 1 = count
  · rw [if_pos ⟨hlast.1, hlast.2, by rw [hauto]; rfl⟩, if_pos hlast]
    rfl
  · rw [if_neg fun h => hlast ⟨h.1, h.2.1⟩, if_neg hlast, ← hauto]

/-- What can be told about a demonstration of `count` waypoints without its random numbers. -/
structure IsDemonstration (s : Scatter Float) (home : Position Float) (count : Nat)
    (waypoints : List (Waypoint Float)) : Prop where
  length : waypoints.length = count
  name {i : Nat} {w : Waypoint Float} (hw : waypoints[i]? = some w) :
    w.target.name = "WP" ++ (i + 1).repr
  first {w : Waypoint Float} (hw : waypoints[0]? = some w) :
    w.target.position = home ∧ w.target.altitude = s.baseAltitude ∧ w.target.time = 0.0
  /-- The time of a leg is added, which is a second or more. -/
  later {i : Nat} {v w : Waypoint Float} (hv : waypoints[i]? = some v)
    (hw : waypoints[i + 1]? = some w) :
    ∃ seconds : Float, 1.0 ≤ seconds ∧ seconds.isNaN = false
      ∧ seconds = s.legTime (Geodesy.legDistance v.target.position v.target.altitude
          w.target.position w.target.altitude)
      ∧ w.target.time = v.target.time + seconds
  time_isNaN {w : Waypoint Float} (hw : w ∈ waypoints) : w.target.time.isNaN = false
  time_le {i j : Nat} (hij : i ≤ j) {v w : Waypoint Float} (hv : waypoints[i]? = some v)
    (hw : waypoints[j]? = some w) : v.target.time ≤ w.target.time
  /-- Below `2 ^ 53` the sum is greater. -/
  time_lt {i j : Nat} (hij : i < j) {v w : Waypoint Float} (hv : waypoints[i]? = some v)
    (hw : waypoints[j]? = some w) (hlt : v.target.time < 9007199254740992.0) :
    v.target.time < w.target.time
  /-- All legs are those that a full computation gives. -/
  current : Legs.recompute .standard waypoints = waypoints
  auto {i : Nat} {w : Waypoint Float} (hw : waypoints[i]? = some w)
    (h : count < 2 ∨ i + 1 < count) : w.target.headingMode = .auto
  pinned {w : Waypoint Float} (hlong : 2 ≤ count) (hw : waypoints.getLast? = some w) :
    w.target.headingMode = .manual w.leg.course

/-- What is drawn with finite bounds is a demonstration. -/
theorem exists_isDemonstration (h : s.Drawable) (ids : FreshIds) (home : Position Float)
    (units : Nat → Float) (count : Nat) :
    ∃ waypoints, s.waypoints ids home units count = some waypoints
      ∧ s.IsDemonstration home count waypoints := by
  obtain ⟨d, hd⟩ := exists_draft home units h count
  have hschedule := isSchedule_draft hd
  obtain ⟨waypoints, hwaypoints⟩ :
      ∃ waypoints, s.waypoints ids home units count = some waypoints :=
    ⟨_, by rw [waypoints_eq_draft, hd, Option.map_some]⟩
  have htarget {i : Nat} {w : Waypoint Float} (hw : waypoints[i]? = some w) :=
    target_of_getElem? hwaypoints hd hw
  refine ⟨waypoints, hwaypoints, ?_⟩
  constructor
  case length => exact length_waypoints hwaypoints
  case name =>
    intro i w hw
    obtain ⟨v, -, ht⟩ := htarget hw
    rw [ht]
    rfl
  case first =>
    intro w hw
    obtain ⟨v, hv, ht⟩ := htarget hw
    rw [ht, hschedule.first hv]
    exact ⟨rfl, rfl, rfl⟩
  case later =>
    intro i v w hv hw
    have hseconds := one_le_legTime s (Speed.length v.target w.target)
    exact ⟨_, hseconds, (LawfulComparison.numbers_of_le hseconds).2, rfl,
      time_eq_add_legTime hwaypoints hv hw⟩
  case time_isNaN =>
    intro w hw
    obtain ⟨i, hi⟩ := List.getElem?_of_mem hw
    obtain ⟨v, hv, ht⟩ := htarget hi
    rw [ht]
    exact (LawfulComparison.numbers_of_le (hschedule.time_nonneg hv)).2
  case time_le =>
    intro i j hij v w hv hw
    obtain ⟨u, hu, htu⟩ := htarget hv
    obtain ⟨x, hx, htx⟩ := htarget hw
    rw [htu, htx]
    exact hschedule.time_le hij hu hx
  case time_lt =>
    intro i j hij v w hv hw hlt
    obtain ⟨u, hu, htu⟩ := htarget hv
    obtain ⟨x, hx, htx⟩ := htarget hw
    rw [htu] at hlt ⊢
    rw [htx]
    exact hschedule.time_lt hij hu hx hlt
  case current => exact recompute_waypoints hwaypoints
  case auto =>
    intro i w hw h
    obtain ⟨v, -, ht⟩ := htarget hw
    rw [ht]
    exact if_neg (by omega)
  case pinned =>
    intro w hlong hw
    rw [List.getLast?_eq_getElem?, length_waypoints hwaypoints] at hw
    obtain ⟨v, -, ht⟩ := htarget hw
    rw [ht]
    exact if_pos ⟨hlong, Nat.sub_add_cancel (Nat.le_of_succ_le hlong)⟩

/-- What a waypoint is called, and where and when the drone is to be there. -/
def appointment (w : Waypoint Float) : String × Position Float × Float × Float :=
  (w.target.name, w.target.position, w.target.altitude, w.target.time)

/-- The appointments are those of the visits, whichever identifiers are given away. -/
theorem map_appointment (h : s.waypoints ids home units count = some waypoints)
    {d : Draft Float} (hd : s.draft home units count = some d) :
    waypoints.map appointment = d.visits.mapIdx fun i v =>
      ("WP" ++ (i + 1).repr, v.station.position, v.station.altitude, v.time) := by
  have hlength : waypoints.length = d.visits.length :=
    (length_waypoints h).trans (isSchedule_draft hd).length.symm
  refine List.ext_getElem (by rw [List.length_map, List.length_mapIdx, hlength]) ?_
  intro i hi hi'
  rw [List.length_map] at hi
  obtain ⟨v, hv, ht⟩ := target_of_getElem? h hd (List.getElem?_eq_getElem hi)
  obtain ⟨_, rfl⟩ := List.getElem?_eq_some_iff.mp hv
  rw [List.getElem_map, List.getElem_mapIdx, appointment, ht]
  rfl

/-- A longer demonstration by the same random numbers begins with the appointments of a shorter
one. -/
theorem take_appointments {n m : Nat} {ids' : FreshIds} {shorter longer : List (Waypoint Float)}
    (hnm : n ≤ m) (hn : s.waypoints ids home units n = some shorter)
    (hm : s.waypoints ids' home units m = some longer) :
    (longer.map appointment).take n = shorter.map appointment := by
  obtain ⟨d, hd, -⟩ := draft_of_waypoints hn
  obtain ⟨d', hd', -⟩ := draft_of_waypoints hm
  rw [map_appointment hn hd, map_appointment hm hd', ← draft_take hnm hd hd']
  refine List.ext_getElem? fun i => ?_
  rw [List.getElem?_take, List.getElem?_mapIdx, List.getElem?_mapIdx, List.getElem?_take]
  split <;> rfl

/-- With a radius and an altitude band that are not infinite, whatever they are otherwise and
whatever the stream of random numbers is, there is a demonstration of each number of waypoints: it
starts at home at time zero, its times are numbers that never decrease and that increase below `2
^ 53`, its legs are computed, and but for the last of two or more its headings are automatic. Of
two demonstrations by the same stream the longer one begins with the names, positions, altitudes
and times of the shorter one. -/
theorem generates_demonstrations (s : Scatter Float) (home : Position Float) (units : Nat → Float)
    (hradius : s.radius ≠ 1.0 / 0.0) (hband : s.altitudeBand ≠ 1.0 / 0.0) :
    (∀ (ids : FreshIds) (count : Nat), ∃ waypoints,
        s.waypoints ids home units count = some waypoints ∧ s.IsDemonstration home count waypoints)
      ∧ ∀ (ids ids' : FreshIds) (n m : Nat) (shorter longer : List (Waypoint Float)), n ≤ m →
        s.waypoints ids home units n = some shorter → s.waypoints ids' home units m = some longer →
          (longer.map appointment).take n = shorter.map appointment := by
  constructor
  · intro ids count
    exact exists_isDemonstration (drawable hradius hband) ids home units count
  · intro ids ids' n m shorter longer hnm hn hm
    exact take_appointments hnm hn hm

end

end Scatter

namespace Command

variable [Geodesy Float] (settings : Settings) (ids : FreshIds) (entropy : Entropy) (count : Nat)

/-- The settings of the command are those of a demonstration that chooses none itself, but for the
altitude of home. -/
def scatter : Scatter Float :=
  { Scatter.standard with baseAltitude := settings.homeAltitude }

omit [Geodesy Float] in
/-- Its radius and altitude band are finite. -/
theorem drawable_scatter : (scatter settings).Drawable :=
  Scatter.drawable (show (300.0 : Float) ≠ 1.0 / 0.0 by decide)
    (show (40.0 : Float) ≠ 1.0 / 0.0 by decide)

/-- So the demonstration of the command can always be drawn, and what the command gives is this
demonstration and never the empty list in its place. -/
theorem waypoints_eq_some_generate :
    (scatter settings).waypoints ids settings.home entropy.units count
      = some (generate settings ids entropy count) := by
  obtain ⟨waypoints, hwaypoints, -⟩ := Scatter.exists_isDemonstration (drawable_scatter settings)
    ids settings.home entropy.units count
  have hgenerate : generate settings ids entropy count = waypoints :=
    congrArg (Option.getD · []) hwaypoints
  rw [hwaypoints, hgenerate]

/-- What the command gives has all that a demonstration has, as many waypoints as were asked for
among it. -/
theorem isDemonstration_generate :
    (scatter settings).IsDemonstration settings.home count
      (generate settings ids entropy count) := by
  obtain ⟨waypoints, hwaypoints, hdemonstration⟩ := Scatter.exists_isDemonstration
    (drawable_scatter settings) ids settings.home entropy.units count
  rw [waypoints_eq_some_generate] at hwaypoints
  obtain rfl := Option.some.inj hwaypoints
  exact hdemonstration

end Command

namespace Scatter

/-- Settings gone astray: the radius is infinite, but below zero, and neither the altitude band nor
the speed is a number. -/
def astray : Scatter Float where
  radius := -(1.0 / 0.0)
  baseAltitude := 50.0
  altitudeBand := 0.0 / 0.0
  cruiseSpeed := 0.0 / 0.0
  hover := -1.0

/-- A demonstration comes of them still, with a waypoint each second. -/
theorem generates_demonstrations_astray :
    letI : Elementary Float := .atZero
    astray.radius ≠ 1.0 / 0.0 ∧ astray.altitudeBand ≠ 1.0 / 0.0
      ∧ ∃ waypoints, astray.waypoints Legs.idOf ⟨0.0, 0.0⟩ Command.hoverWords.units 3
          = some waypoints
        ∧ waypoints.length = 3 ∧ (∀ w ∈ waypoints, w.target.time.isNaN = false)
        ∧ waypoints.map (·.target.time) = [0.0, 1.0, 2.0] := by
  let _ : Elementary Float := .atZero
  have hradius : astray.radius ≠ 1.0 / 0.0 := by decide
  have hband : astray.altitudeBand ≠ 1.0 / 0.0 := by decide
  obtain ⟨hmade, -⟩ := generates_demonstrations astray ⟨0.0, 0.0⟩ Command.hoverWords.units
    hradius hband
  obtain ⟨waypoints, hwaypoints, hdemonstration⟩ := hmade Legs.idOf 3
  refine ⟨hradius, hband, waypoints, hwaypoints, hdemonstration.length, ?_, ?_⟩
  · intro w hw
    exact hdemonstration.time_isNaN hw
  · have htimes : (astray.waypoints Legs.idOf ⟨0.0, 0.0⟩ Command.hoverWords.units 3).map
        (List.map (·.target.time)) = some [0.0, 1.0, 2.0] := by decide +kernel
    rw [hwaypoints] at htimes
    exact Option.some.inj htimes

end Scatter

end FlightPlan
