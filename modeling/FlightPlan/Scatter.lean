import FlightPlan.Legs

/-!
# `FlightPlan.Scatter`: demonstration plans around a home

A demonstration plan starts at a home position and visits points scattered
around it. Each point takes a random distance and bearing from home and, unless
the altitude band is empty, a random climb. Times follow from the legs: a leg is
flown at cruise speed, in whole seconds, with some hovering added, and takes at
least one second.

Every point uses the same number of random numbers, so a point depends on its
place in the sequence alone and not on how many follow.
-/

set_option autoImplicit false

namespace FlightPlan

/-- How points are scattered and timed. -/
structure Scatter (α : Type) where
  /-- The greatest distance from home, in meters. -/
  radius : α
  /-- The altitude of home. -/
  baseAltitude : α
  /-- The greatest climb above that altitude. -/
  altitudeBand : α
  /-- The speed that times are made for. -/
  cruiseSpeed : α
  /-- Seconds added to every leg. -/
  hover : α

/-- A place in the air. -/
structure Station (α : Type) where
  position : Position α
  altitude : α

namespace Scatter

variable {α : Type} [Scalar α]

/-- The settings of a demonstration that chooses none itself. -/
def standard : Scatter α where
  radius := 300.0
  baseAltitude := 50.0
  altitudeBand := 40.0
  cruiseSpeed := 8.0
  hover := 2.0

/-- The radius in use, at least one meter. -/
def reach (s : Scatter α) : α :=
  Scalar.fmax s.radius 1.0

/-- Points climb. -/
def climbs (s : Scatter α) : Bool :=
  0.0 < s.altitudeBand

/-- How many random numbers a point uses. -/
def drawsPerPoint (s : Scatter α) : Nat :=
  if s.climbs then 3 else 2

/-- A number of `[0, 1)` stretched to `[0, bound)`. Nothing can be drawn below a
bound that is not finite. -/
def draw (unit bound : α) : Option α :=
  if Scalar.isFinite bound then some (unit * bound + 0.0) else none

/-- Where the waypoint of an index is put, given the stream of random numbers of
`[0, 1)`. The first one is at home. -/
def station [Geodesy α] (s : Scatter α) (home : Position α) (units : Nat → α) :
    Nat → Option (Station α)
  | 0 => some ⟨home, s.baseAltitude⟩
  | index + 1 => do
    let first := index * s.drawsPerPoint
    let distance ← draw (units first) s.reach
    let bearing ← draw (units (first + 1)) (2.0 * Sphere.pi)
    let climb ← if s.climbs then draw (units (first + 2)) s.altitudeBand else some 0.0
    some ⟨Geodesy.offset home distance bearing, s.baseAltitude + climb⟩

/-- The seconds that a leg of some length is given. -/
def legTime (s : Scatter α) (length : α) : α :=
  Scalar.fmax (Scalar.ceil (length / Scalar.fmax s.cruiseSpeed 0.1) + s.hover) 1.0

/-- The target at a station, named for its index. -/
def target (ids : FreshIds) (index : Nat) (time : α) (station : Station α) : Target α where
  id := ids index
  name := "WP" ++ (index + 1).repr
  position := station.position
  altitude := station.altitude
  time := time
  headingMode := .auto

variable [Geodesy α]

/-- The targets at the stations after another, in time. -/
def timed (s : Scatter α) (ids : FreshIds) (previous : Target α) (index : Nat) :
    List (Station α) → List (Target α)
  | [] => []
  | next :: rest =>
    let length := Geodesy.legDistance previous.position previous.altitude
      next.position next.altitude
    let reached := target ids index (previous.time + s.legTime length) next
    reached :: timed s ids reached (index + 1) rest

/-- The targets of a demonstration. -/
def targets (s : Scatter α) (ids : FreshIds) : List (Station α) → List (Target α)
  | [] => []
  | first :: rest =>
    let start := target ids 0 0.0 first
    start :: timed s ids start 1 rest

/-- A demonstration of `count` waypoints, with their legs computed under the
standard limits and the last heading fixed. There is none if a bound of its
random numbers is not finite. -/
def waypoints (s : Scatter α) (ids : FreshIds) (home : Position α) (units : Nat → α)
    (count : Nat) : Option (List (Waypoint α)) := do
  let stations ← (List.range count).mapM (s.station home units)
  let planned := (s.targets ids stations).map Target.toWaypoint
  some (Legs.pinTail (Legs.recompute .standard planned))

end Scatter

end FlightPlan
