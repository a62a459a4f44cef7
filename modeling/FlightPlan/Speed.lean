import FlightPlan.Tier
import FlightPlan.Waypoint

/-!
# `FlightPlan.Speed`: the speed a leg requires

The required speed of a leg is its length over the time allotted to it, to one
decimal. A leg that has no length or no time that can be told requires none:
the speed is zero when the time is not positive, and when time or length fail to
be finite. A waypoint without a finite time starts its leg at time zero.
-/

set_option autoImplicit false

namespace FlightPlan.Speed

variable {α : Type} [Scalar α]

/-- The time at which a leg from this waypoint starts. -/
def startTime (origin : Target α) : α :=
  if Scalar.isFinite origin.time then origin.time else 0.0

/-- The speed for a length and a time. -/
def ofLength (length duration : α) : α :=
  if !Scalar.isFinite duration then 0.0
  else if duration ≤ 0.0 then 0.0
  else if !Scalar.isFinite length then 0.0
  else Scalar.roundTenth (length / duration)

variable [Geodesy α]

/-- The length of the leg between two targets. -/
def length (origin goal : Target α) : α :=
  Geodesy.legDistance origin.position origin.altitude goal.position goal.altitude

/-- The speed that the leg between two targets requires. -/
def required (origin goal : Target α) : α :=
  ofLength (length origin goal) (goal.time - startTime origin)

/-- The speed that the leg would require if its goal were moved to `position`,
at its altitude and time. -/
def preview (origin goal : Target α) (position : Position α) : α :=
  required origin { goal with position }

end FlightPlan.Speed
