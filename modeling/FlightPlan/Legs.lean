import FlightPlan.Speed

/-!
# `FlightPlan.Legs`: the leg that each waypoint reports

Every waypoint but the last reports the leg that leaves it. The last has none,
and reports the leg that arrives at it. A waypoint on its own reports no leg.

* `placed` gives each waypoint of a sequence together with its neighbours, which
  is all that its leg depends on.
* `recompute` computes every leg anew.
* `refresh` computes anew only the legs that the change of one waypoint can have
  touched, and those that were computed against another neighbour than they
  have now.
* `pinTail` makes the last waypoint keep the heading it arrives with.
-/

set_option autoImplicit false

namespace FlightPlan

/-- A waypoint with its neighbours in the sequence. -/
structure Placed (α : Type) where
  previous : Option (Target α)
  here : Waypoint α
  next : Option (Target α)

namespace Legs

variable {α : Type}

/-- The waypoints behind `previous`, each with its neighbours. -/
def placedAfter (previous : Option (Target α)) : List (Waypoint α) → List (Placed α)
  | [] => []
  | here :: rest =>
    ⟨previous, here, rest.head?.map Waypoint.target⟩ :: placedAfter (some here.target) rest

/-- The waypoints of a sequence, each with its neighbours. -/
def placed (waypoints : List (Waypoint α)) : List (Placed α) :=
  placedAfter none waypoints

end Legs

namespace Placed

variable {α : Type}

/-- The two ends of the leg that a waypoint reports: from it to the next, or to
it from the previous when it is the last. -/
def ends (p : Placed α) : Option (Target α × Target α) :=
  match p.next, p.previous with
  | some next, _ => some (p.here.target, next)
  | none, some previous => some (previous, p.here.target)
  | none, none => none

/-- The waypoint at the other end of that leg. -/
def peer (p : Placed α) : Option WaypointId :=
  match p.next, p.previous with
  | some next, _ => some next.id
  | none, some previous => some previous.id
  | none, none => none

variable [Scalar α] [Geodesy α]

/-- The speed that the leg requires, if there is a leg. -/
def speed? (p : Placed α) : Option α :=
  p.ends.map fun (origin, goal) => Speed.required origin goal

/-- The heading along the leg, if there is a leg. -/
def course? (p : Placed α) : Option α :=
  p.ends.map fun (origin, goal) => Heading.toward origin.position goal.position

/-- What follows about the leg. -/
def leg (limits : Limits α) (p : Placed α) : Leg α :=
  let speed := p.speed?.getD 0.0
  let course := p.course?.getD 0.0
  { heading := p.here.target.headingMode.effective course
    speed
    feasible := limits.tier speed == .feasible
    course
    peer := p.peer }

/-- The waypoint with its leg computed anew. -/
def computed (limits : Limits α) (p : Placed α) : Waypoint α :=
  { p.here with leg := p.leg limits }

end Placed

namespace Legs

variable {α : Type} [Scalar α] [Geodesy α]

/-- The sequence with every leg computed anew. -/
def recompute (limits : Limits α) (waypoints : List (Waypoint α)) : List (Waypoint α) :=
  (placed waypoints).map (Placed.computed limits)

/-- The change of the waypoint at index `changed` reaches the leg that the
waypoint at `index` reports: its own, that of the one before it, and that of the
last waypoint if it comes right behind. -/
def isTouched (count changed index : Nat) : Bool :=
  index == changed || index + 1 == changed || (changed + 2 == count && index + 1 == count)

/-- The waypoint at `index` with its leg computed anew where the change can have
reached it or its recorded neighbour is not the one it has. -/
def refreshed (limits : Limits α) (count changed index : Nat) (p : Placed α) : Waypoint α :=
  if isTouched count changed index || p.here.leg.peer != p.peer then p.computed limits
  else p.here

/-- The sequence after the waypoint `id` was moved, edited or put in, with the
touched legs computed anew. All legs are, if there is no such waypoint. -/
def refresh (limits : Limits α) (id : WaypointId) (waypoints : List (Waypoint α)) :
    List (Waypoint α) :=
  match waypoints.findIdx? (·.target.id == id) with
  | none => recompute limits waypoints
  | some changed =>
    if waypoints.length < 2 then recompute limits waypoints
    else (placed waypoints).mapIdx (refreshed limits waypoints.length changed)

omit [Geodesy α] in
/-- The waypoint with an automatic heading fixed along its leg. -/
def pinned (waypoint : Waypoint α) : Waypoint α :=
  if waypoint.target.headingMode.isAuto then
    let course := waypoint.leg.course
    { target := { waypoint.target with headingMode := .manual course }
      leg := { waypoint.leg with heading := Heading.normalize course } }
  else waypoint

omit [Geodesy α] in
/-- The sequence with the heading of its last waypoint fixed along the leg that
arrives there. On its own a waypoint has no such leg and stays as it is. -/
def pinTail (waypoints : List (Waypoint α)) : List (Waypoint α) :=
  if waypoints.length < 2 then waypoints
  else waypoints.modify (waypoints.length - 1) pinned

end Legs

end FlightPlan
