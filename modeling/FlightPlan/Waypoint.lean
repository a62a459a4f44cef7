import FlightPlan.Heading
import FlightPlan.WaypointId

/-!
# `FlightPlan.Waypoint`: what is planned and what follows from it

A waypoint has two parts. Its `Target` is what the planner decides: where the
drone must be, when, and which way it points there. Its `Leg` follows from the
targets around it and is replaced whenever a plan is recomputed; nobody else
writes to it.
-/

set_option autoImplicit false

namespace FlightPlan

/-- What the planner decides about a waypoint. -/
structure Target (α : Type) where
  id : WaypointId
  /-- A label for people, which decides nothing. -/
  name : String
  position : Position α
  /-- Meters above mean sea level. -/
  altitude : α
  /-- Seconds after the start at which the drone must be here. -/
  time : α
  headingMode : HeadingMode α
deriving BEq

/-- What follows from the targets about the leg that a waypoint reports. -/
structure Leg (α : Type) where
  /-- The heading at the waypoint, from its mode. -/
  heading : α
  /-- The speed that the leg requires, in meters per second. -/
  speed : α
  /-- The speed is in the feasible tier. -/
  feasible : Bool
  /-- The heading along the leg, whatever the mode. -/
  course : α
  /-- The waypoint at the other end of the leg. -/
  peer : Option WaypointId
deriving BEq

/-- A target and the leg it reports. -/
structure Waypoint (α : Type) where
  target : Target α
  leg : Leg α
deriving BEq

/-- The leg of a waypoint that has not been computed yet. -/
def Leg.blank {α : Type} [Scalar α] : Leg α where
  heading := 0.0
  speed := 0.0
  feasible := false
  course := 0.0
  peer := none

/-- A waypoint whose leg has not been computed yet. -/
def Target.toWaypoint {α : Type} [Scalar α] (target : Target α) : Waypoint α :=
  ⟨target, .blank⟩

/-- The target can be flown to: its position is valid and its altitude finite. -/
def Target.isPlaced {α : Type} [Scalar α] (target : Target α) : Bool :=
  target.position.isValid && Scalar.isFinite target.altitude

/-- Two numbers that compare equal or are the same value. The second lets what
is not a number agree with itself. -/
def agree {α : Type} [BEq α] [DecidableEq α] (a b : α) : Bool :=
  a == b || decide (a = b)

/-- Two legs that report the same. -/
def Leg.agrees {α : Type} [BEq α] [DecidableEq α] (a b : Leg α) : Bool :=
  agree a.heading b.heading && agree a.speed b.speed && a.feasible == b.feasible
    && agree a.course b.course && a.peer == b.peer

end FlightPlan
