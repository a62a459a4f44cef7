import FlightPlan.Proofs.Legs.Placed
import FlightPlan.Scatter

/-!
# `FlightPlan.Proofs.Scatter.Loop`: a demonstration made waypoint after waypoint

`Scatter.waypoints` makes all stations of a demonstration first, each by the random numbers that
its index tells where to find, and gives them their times afterwards. A loop that makes one
waypoint after the other only knows the visits that it has so far and how much of the stream it
has used. That is a `Draft`. One step puts one more visit at its end (`Draft.next`): it takes two
or three numbers for the place, or none for the first one, and a time from the visit before it.

Both come out the same (`waypoints_eq_draft`), because every visit but the first uses equally many
numbers. What one step does is said once, in `Draft.next_eq_some`, and what a whole loop does
follows by induction on the number of steps:

* `isSchedule_draft`: there is a visit for each step, the first is at home at time zero, and each
  of the others is later than the one before it by the time of the leg between them;
* `draft_take`: a longer loop begins with what a shorter one makes.
-/

set_option autoImplicit false

namespace FlightPlan

/-- Where a waypoint is put, and when the drone is to be there. -/
structure Visit (α : Type) where
  station : Station α
  time : α

/-- A demonstration in the making: its visits so far, and how many random numbers they used. -/
structure Draft (α : Type) where
  visits : List (Visit α)
  used : Nat

/-- The targets of the visits, named for their places in the sequence. -/
def Draft.targets {α : Type} (ids : FreshIds) (d : Draft α) : List (Target α) :=
  d.visits.mapIdx fun index v => Scatter.target ids index v.time v.station

variable {α : Type} [Scalar α] [Geodesy α]

namespace Scatter

/-- The visit of home that every demonstration starts with. -/
def departure (s : Scatter α) (home : Position α) : Visit α :=
  ⟨⟨home, s.baseAltitude⟩, 0.0⟩

/-- A station near home by the next numbers of the stream, and how many are used after it. -/
def stationNear (s : Scatter α) (home : Position α) (units : Nat → α) (used : Nat) :
    Option (Station α × Nat) := do
  let distance ← draw (units used) s.reach
  let bearing ← draw (units (used + 1)) (2.0 * Sphere.pi)
  let position := Geodesy.offset home distance bearing
  if s.climbs then
    let climb ← draw (units (used + 2)) s.altitudeBand
    some (⟨position, s.baseAltitude + climb⟩, used + 3)
  else
    some (⟨position, s.baseAltitude + 0.0⟩, used + 2)

/-- The time from a visit to a station after it. -/
def secondsTo (s : Scatter α) (previous : Visit α) (station : Station α) : α :=
  s.legTime (Geodesy.legDistance previous.station.position previous.station.altitude
    station.position station.altitude)

end Scatter

/-- One more visit, near home, or at home if there is none so far. -/
def Draft.next (s : Scatter α) (home : Position α) (units : Nat → α) (d : Draft α) :
    Option (Draft α) :=
  match d.visits.getLast? with
  | none => some { d with visits := [s.departure home] }
  | some previous => do
    let (station, used) ← s.stationNear home units d.used
    some ⟨d.visits ++ [⟨station, previous.time + s.secondsTo previous station⟩], used⟩

/-- A draft of `count` visits. -/
def Scatter.draft (s : Scatter α) (home : Position α) (units : Nat → α) : Nat → Option (Draft α)
  | 0 => some ⟨[], 0⟩
  | count + 1 => (draft s home units count).bind (Draft.next s home units)

variable {s : Scatter α} {home : Position α} {units : Nat → α} {ids : FreshIds} {d d' : Draft α}

/-! ### One step -/

/-- A visit goes well behind some others: at home if there are none, and otherwise as much later
than the last of them as it takes to get there. -/
structure Scatter.Follows (s : Scatter α) (home : Position α) (visits : List (Visit α))
    (v : Visit α) : Prop where
  start (h : visits = []) : v = s.departure home
  later {u : Visit α} (h : visits.getLast? = some u) : v.time = u.time + s.secondsTo u v.station

/-- A draft with a last visit goes on from there. -/
theorem Draft.next_of_getLast? {u : Visit α} (hlast : d.visits.getLast? = some u) :
    d.next s home units = (s.stationNear home units d.used).map fun (station, used) =>
      ⟨d.visits ++ [⟨station, u.time + s.secondsTo u station⟩], used⟩ := by
  rw [Draft.next, hlast]
  cases s.stationNear home units d.used <;> rfl

/-- A step leaves the visits there are and puts one behind them. -/
theorem Draft.next_eq_some (h : d.next s home units = some d') :
    ∃ v, d'.visits = d.visits ++ [v] ∧ s.Follows home d.visits v := by
  cases hlast : d.visits.getLast? with
  | none =>
      have hnil : d.visits = [] := List.getLast?_eq_none_iff.mp hlast
      rw [Draft.next, hlast] at h
      obtain rfl := Option.some.inj h
      refine ⟨s.departure home, by rw [hnil]; rfl, fun _ => rfl, ?_⟩
      intro u hu
      rw [hlast] at hu
      contradiction
  | some previous =>
      rw [Draft.next_of_getLast? hlast] at h
      obtain ⟨⟨station, used⟩, -, rfl⟩ := Option.map_eq_some_iff.mp h
      refine ⟨_, rfl, ?_, ?_⟩
      · intro hnil
        rw [hnil] at hlast
        contradiction
      · intro u hu
        obtain rfl := Option.some.inj (hlast.symm.trans hu)
        rfl

namespace Scatter

/-! ### The whole loop -/

/-- A draft of one visit more comes of a shorter one. -/
theorem draft_succ_eq_some {count : Nat} (h : s.draft home units (count + 1) = some d') :
    ∃ d, s.draft home units count = some d ∧ d.next s home units = some d' :=
  Option.bind_eq_some_iff.mp h

/-- What a loop of `count` steps leaves. -/
structure IsSchedule (s : Scatter α) (home : Position α) (count : Nat) (visits : List (Visit α)) :
    Prop where
  length : visits.length = count
  first {v : Visit α} (hv : visits[0]? = some v) : v = s.departure home
  later {i : Nat} {u v : Visit α} (hu : visits[i]? = some u) (hv : visits[i + 1]? = some v) :
    v.time = u.time + s.secondsTo u v.station

/-- One more visit that goes well behind the others. -/
theorem IsSchedule.append {count : Nat} {visits : List (Visit α)} {w : Visit α}
    (h : IsSchedule s home count visits) (hw : s.Follows home visits w) :
    IsSchedule s home (count + 1) (visits ++ [w]) where
  length := by rw [List.length_append, h.length, List.length_singleton]
  first {v} hv := by
    cases visits with
    | nil =>
        obtain rfl := Option.some.inj hv
        exact hw.start rfl
    | cons first rest => exact h.first hv
  later {i u v} hu hv := by
    -- The new visit is at the end, so a pair of neighbours is among the old ones or ends with it.
    rcases Nat.lt_trichotomy (i + 1) visits.length with hi | hi | hi
    · rw [List.getElem?_append_left (by omega)] at hu
      rw [List.getElem?_append_left hi] at hv
      exact h.later hu hv
    · rw [List.getElem?_append_left (by omega)] at hu
      rw [hi, List.getElem?_concat_length] at hv
      obtain rfl := Option.some.inj hv
      refine hw.later ?_
      rw [List.getLast?_eq_getElem?, ← hi]
      exact hu
    · rw [List.getElem?_eq_none (by rw [List.length_append, List.length_singleton]; omega)] at hv
      contradiction

/-- What the loop leaves after any number of steps is a schedule. -/
theorem isSchedule_draft {count : Nat} (h : s.draft home units count = some d) :
    IsSchedule s home count d.visits := by
  induction count generalizing d with
  | zero =>
      obtain rfl := Option.some.inj h
      exact ⟨rfl, fun hv => by contradiction, fun hu => by contradiction⟩
  | succ count ih =>
      -- The schedule itself is the invariant: a step only puts a visit where one may follow.
      obtain ⟨d₀, hd₀, hnext⟩ := draft_succ_eq_some h
      obtain ⟨v, hvisits, hv⟩ := Draft.next_eq_some hnext
      rw [hvisits]
      exact (ih hd₀).append hv

/-- A longer loop begins with what a shorter one makes. -/
theorem draft_take {n m : Nat} (hnm : n ≤ m) (hn : s.draft home units n = some d)
    (hm : s.draft home units m = some d') : d'.visits.take n = d.visits := by
  induction hnm generalizing d' with
  | refl =>
      obtain rfl := Option.some.inj (hn.symm.trans hm)
      rw [← (isSchedule_draft hn).length, List.take_length]
  | step hnm ih =>
      obtain ⟨d₀, hd₀, hnext⟩ := draft_succ_eq_some hm
      obtain ⟨v, hvisits, -⟩ := Draft.next_eq_some hnext
      -- The new visit is behind the first `n`, of which the draft before had enough.
      have hlength : n ≤ d₀.visits.length := (isSchedule_draft hd₀).length ▸ hnm
      rw [hvisits, List.take_append_of_le_length hlength]
      exact ih hd₀

/-! ### Numbers used -/

/-- Every number is drawn below a bound that is finite. -/
structure Drawable (s : Scatter α) : Prop where
  reach : Scalar.isFinite s.reach = true
  turn : Scalar.isFinite (2.0 * Sphere.pi : α) = true
  band (h : s.climbs = true) : Scalar.isFinite s.altitudeBand = true

/-- A station uses as many numbers as any other. -/
theorem used_stationNear {used after : Nat} {station : Station α}
    (h : s.stationNear home units used = some (station, after)) :
    after = used + s.drawsPerPoint := by
  obtain ⟨distance, -, h⟩ := Option.bind_eq_some_iff.mp h
  obtain ⟨bearing, -, h⟩ := Option.bind_eq_some_iff.mp h
  rw [drawsPerPoint]
  split at h
  · rename_i hclimbs
    obtain ⟨climb, -, h⟩ := Option.bind_eq_some_iff.mp h
    rw [if_pos hclimbs]
    exact (Prod.mk.inj (Option.some.inj h)).2.symm
  · rename_i hclimbs
    rw [if_neg hclimbs]
    exact (Prod.mk.inj (Option.some.inj h)).2.symm

/-- Near home a station can always be drawn. -/
theorem exists_stationNear (home : Position α) (units : Nat → α) (h : s.Drawable) (used : Nat) :
    ∃ station, s.stationNear home units used = some station := by
  have hdraw {unit bound : α} (hbound : Scalar.isFinite bound = true) :
      draw unit bound = some (unit * bound + 0.0) := if_pos hbound
  simp only [stationNear, hdraw h.reach, hdraw h.turn, Option.bind_eq_bind, Option.bind_some]
  split
  · rename_i hclimbs
    rw [hdraw (h.band hclimbs)]
    exact ⟨_, rfl⟩
  · exact ⟨_, rfl⟩

/-- So a draft of any length can be drawn. -/
theorem exists_draft (home : Position α) (units : Nat → α) (h : s.Drawable) (count : Nat) :
    ∃ d, s.draft home units count = some d := by
  induction count with
  | zero => exact ⟨_, rfl⟩
  | succ count ih =>
      obtain ⟨d, hd⟩ := ih
      obtain ⟨station, hstation⟩ := exists_stationNear home units h d.used
      rw [draft, hd, Option.bind_some]
      cases hlast : d.visits.getLast? with
      | none => exact ⟨_, by rw [Draft.next, hlast]⟩
      | some previous => exact ⟨_, by rw [Draft.next_of_getLast? hlast, hstation]; rfl⟩

/-! ### Stations by index -/

/-- The station of an index is the one made after those before it used their numbers. -/
theorem station_succ (index : Nat) :
    s.station home units (index + 1)
      = (s.stationNear home units (index * s.drawsPerPoint)).map Prod.fst := by
  simp only [station, stationNear, Option.bind_eq_bind, Option.map_bind]
  congr 1
  funext distance
  simp only [Function.comp_apply, Option.map_bind]
  congr 1
  funext bearing
  by_cases hclimbs : s.climbs = true
  · simp only [if_pos hclimbs, Function.comp_apply, Option.map_bind]
    rfl
  · simp only [if_neg hclimbs]
    rfl

/-- One more station is visited after the last of the others. -/
theorem timed_append {previous last : Target α} {index : Nat} {rest : List (Station α)}
    (hlast : (previous :: s.timed ids previous index rest).getLast? = some last)
    (next : Station α) :
    s.timed ids previous index (rest ++ [next])
      = s.timed ids previous index rest
        ++ [target ids (index + rest.length)
            (last.time + s.legTime (Geodesy.legDistance last.position last.altitude
              next.position next.altitude)) next] := by
  induction rest generalizing previous index with
  | nil =>
      obtain rfl := Option.some.inj hlast
      rfl
  | cons first rest ih =>
      have hplace : index + (rest.length + 1) = index + 1 + rest.length := by omega
      simp only [timed, List.getLast?_cons_cons] at hlast
      simp only [timed, List.cons_append, List.length_cons, ih hlast, hplace]

/-- One more station adds a target at the end and changes none before it. -/
theorem targets_append {stations : List (Station α)} {last : Target α}
    (hlast : (s.targets ids stations).getLast? = some last) (next : Station α) :
    s.targets ids (stations ++ [next])
      = s.targets ids stations
        ++ [target ids stations.length
            (last.time + s.legTime (Geodesy.legDistance last.position last.altitude
              next.position next.altitude)) next] := by
  cases stations with
  | nil => contradiction
  | cons first rest =>
      have htimed := timed_append hlast next
      rw [Nat.add_comm] at htimed
      exact congrArg (target ids 0 0.0 first :: ·) htimed

/-- Every station is given its time. -/
theorem length_timed (previous : Target α) (index : Nat) (rest : List (Station α)) :
    (s.timed ids previous index rest).length = rest.length := by
  induction rest generalizing previous index with
  | nil => rfl
  | cons first rest ih => simp only [timed, List.length_cons, ih]

/-- There are as many targets as stations. -/
theorem length_targets (s : Scatter α) (ids : FreshIds) (stations : List (Station α)) :
    (s.targets ids stations).length = stations.length := by
  cases stations with
  | nil => rfl
  | cons first rest => simp only [targets, List.length_cons, length_timed]

/-- Drawing one more is drawing the others first, and failing where one of them fails. -/
theorem mapM_range_succ {β : Type} (f : Nat → Option β) (n : Nat) :
    (List.range (n + 1)).mapM f
      = ((List.range n).mapM f).bind fun front => (f n).map fun last => front ++ [last] := by
  rw [List.range_succ, List.mapM_append]
  cases (List.range n).mapM f with
  | none => rfl
  | some front => cases h : f n <;> simp [h]

/-- After a step there is a visit. -/
theorem visits_ne_nil {count : Nat} (h : s.draft home units (count + 1) = some d) :
    d.visits ≠ [] := by
  rw [← List.length_pos_iff, (isSchedule_draft h).length]
  exact Nat.succ_pos count

/-- After `count + 1` visits all but the first have used their numbers. -/
theorem used_draft {count : Nat} (h : s.draft home units (count + 1) = some d) :
    d.used = count * s.drawsPerPoint := by
  induction count generalizing d with
  | zero =>
      -- Home is not drawn.
      obtain rfl := Option.some.inj h
      exact (Nat.zero_mul _).symm
  | succ count ih =>
      obtain ⟨d₀, hd₀, hnext⟩ := draft_succ_eq_some h
      rw [Draft.next_of_getLast? (List.getLast?_eq_some_getLast (visits_ne_nil hd₀))] at hnext
      obtain ⟨⟨station, after⟩, hstation, rfl⟩ := Option.map_eq_some_iff.mp hnext
      rw [Nat.add_mul, Nat.one_mul, ← ih hd₀]
      exact used_stationNear hstation

/-- Stations that make the targets of a draft make those of the draft with one more visit. -/
theorem targets_append_eq {stations : List (Station α)} {u : Visit α}
    (htargets : s.targets ids stations = d.targets ids) (hlast : d.visits.getLast? = some u)
    (station : Station α) (used : Nat) :
    s.targets ids (stations ++ [station])
      = Draft.targets ids ⟨d.visits ++ [⟨station, u.time + s.secondsTo u station⟩], used⟩ := by
  have hlength : stations.length = d.visits.length := by
    rw [← length_targets s ids, htargets, Draft.targets, List.length_mapIdx]
  have htarget : (s.targets ids stations).getLast?
      = some (target ids (d.visits.length - 1) u.time u.station) := by
    rw [htargets, Draft.targets, List.getLast?_eq_getElem?, List.length_mapIdx,
      List.getElem?_mapIdx, ← List.getLast?_eq_getElem?, hlast]
    rfl
  rw [targets_append htarget, htargets, hlength, Draft.targets, Draft.targets, List.mapIdx_concat]
  rfl

/-- The stations looked up by index are visited at the times of the draft. -/
theorem targets_eq_draft (s : Scatter α) (home : Position α) (units : Nat → α) (ids : FreshIds)
    (count : Nat) :
    ((List.range count).mapM (s.station home units)).map (s.targets ids)
      = (s.draft home units count).map (Draft.targets ids) := by
  -- The first waypoint is not made like the others, so the induction starts behind it.
  cases count with
  | zero => rfl
  | succ count =>
      induction count with
      | zero => rfl
      | succ count ih =>
          rw [mapM_range_succ, draft]
          cases hd : s.draft home units (count + 1) with
          | none =>
              -- A number that could not be drawn before ends both.
              rw [hd] at ih
              rw [Option.map_eq_none_iff.mp ih]
              rfl
          | some d =>
              rw [hd] at ih
              obtain ⟨stations, hstations, htargets⟩ := Option.map_eq_some_iff.mp ih
              have hlast := List.getLast?_eq_some_getLast (visits_ne_nil hd)
              -- Both go on with the same numbers, from the last of the same targets.
              rw [hstations, station_succ, ← used_draft hd, Option.bind_some, Option.bind_some,
                Draft.next_of_getLast? hlast]
              cases s.stationNear home units d.used with
              | none => rfl
              | some near => exact congrArg some (targets_append_eq htargets hlast near.1 near.2)

/-- Demonstrations are those of the loop, with their legs computed and the last heading fixed. -/
theorem waypoints_eq_draft (s : Scatter α) (home : Position α) (units : Nat → α) (ids : FreshIds)
    (count : Nat) :
    s.waypoints ids home units count = (s.draft home units count).map fun d =>
      Legs.pinTail (Legs.recompute .standard ((d.targets ids).map Target.toWaypoint)) := by
  have hplanned : s.waypoints ids home units count
      = (((List.range count).mapM (s.station home units)).map (s.targets ids)).map fun targets =>
          Legs.pinTail (Legs.recompute .standard (targets.map Target.toWaypoint)) := by
    unfold waypoints
    cases (List.range count).mapM (s.station home units) <;> rfl
  rw [hplanned, targets_eq_draft, Option.map_map]
  rfl

/-- So every demonstration comes from a draft. -/
theorem draft_of_waypoints {count : Nat} {waypoints : List (Waypoint α)}
    (h : s.waypoints ids home units count = some waypoints) :
    ∃ d, s.draft home units count = some d
      ∧ Legs.pinTail (Legs.recompute .standard ((d.targets ids).map Target.toWaypoint))
        = waypoints := by
  rw [waypoints_eq_draft] at h
  exact Option.map_eq_some_iff.mp h

/-! ### Waypoints -/

/-- There are as many waypoints as were asked for. -/
theorem length_waypoints {count : Nat} {waypoints : List (Waypoint α)}
    (h : s.waypoints ids home units count = some waypoints) :
    waypoints.length = count := by
  obtain ⟨d, hd, rfl⟩ := draft_of_waypoints h
  rw [← List.length_map (·.target.bare), Legs.map_bare_pinTail, List.length_map,
    Legs.length_recompute, List.length_map, Draft.targets, List.length_mapIdx,
    (isSchedule_draft hd).length]

/-- Computing legs leaves planned targets as they are. -/
theorem map_target_planned (limits : Limits α) (targets : List (Target α)) :
    (Legs.recompute limits (targets.map Target.toWaypoint)).map Waypoint.target = targets := by
  rw [Legs.map_target_recompute, List.map_map]
  exact List.map_id targets

/-- A waypoint is where and when the visit at its index is. Only its heading is another matter. -/
theorem bare_target_of_getElem? {count : Nat} {waypoints : List (Waypoint α)}
    (h : s.waypoints ids home units count = some waypoints) {d : Draft α}
    (hd : s.draft home units count = some d) {i : Nat} {w : Waypoint α}
    (hw : waypoints[i]? = some w) :
    ∃ v, d.visits[i]? = some v ∧ w.target.bare = (target ids i v.time v.station).bare := by
  obtain ⟨made, hmade, rfl⟩ := draft_of_waypoints h
  obtain rfl := Option.some.inj (hmade.symm.trans hd)
  -- Neither the legs nor the last heading are part of what is compared.
  have hbare : (Legs.pinTail (Legs.recompute .standard
      ((made.targets ids).map Target.toWaypoint))).map (·.target.bare)
      = (made.targets ids).map Target.bare := by
    have htargets := congrArg (List.map Target.bare)
      (map_target_planned .standard (made.targets ids))
    rw [List.map_map] at htargets
    exact (Legs.map_bare_pinTail _).trans htargets
  have hindex := congrArg (·[i]?) hbare
  simp only [List.getElem?_map, hw, Option.map_some] at hindex
  obtain ⟨t, ht, hsame⟩ := Option.map_eq_some_iff.mp hindex.symm
  rw [Draft.targets, List.getElem?_mapIdx] at ht
  obtain ⟨v, hv, rfl⟩ := Option.map_eq_some_iff.mp ht
  exact ⟨v, hv, hsame.symm⟩

/-- The seconds between two waypoints that follow each other are those that their leg is given. -/
theorem time_eq_add_legTime {count : Nat} {waypoints : List (Waypoint α)}
    (h : s.waypoints ids home units count = some waypoints) {i : Nat} {v w : Waypoint α}
    (hv : waypoints[i]? = some v) (hw : waypoints[i + 1]? = some w) :
    w.target.time = v.target.time + s.legTime (Speed.length v.target w.target) := by
  obtain ⟨d, hd, -⟩ := draft_of_waypoints h
  obtain ⟨u, hu, hbare⟩ := bare_target_of_getElem? h hd hv
  obtain ⟨x, hx, hbare'⟩ := bare_target_of_getElem? h hd hw
  simp only [Target.bare, target, Target.mk.injEq] at hbare hbare'
  obtain ⟨-, -, hposition, haltitude, htime, -⟩ := hbare
  obtain ⟨-, -, hposition', haltitude', htime', -⟩ := hbare'
  rw [Speed.length, hposition, haltitude, htime, hposition', haltitude', htime']
  exact (isSchedule_draft hd).later hu hx

end Scatter

end FlightPlan
