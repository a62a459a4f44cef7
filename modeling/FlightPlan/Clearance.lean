import FlightPlan.Report
import FlightPlan.Terrain

/-!
# `FlightPlan.Clearance`: waypoints too close to the ground

Every waypoint with a valid position and a finite altitude is held against the
terrain, and those with less than the least clearance are reported. Where the
ground is not known nothing can be said.
-/

set_option autoImplicit false

namespace FlightPlan

variable {α : Type} [Scalar α]

/-- The height of a target above the ground. -/
def Target.clearance (target : Target α) (ground : α) : α :=
  target.altitude - ground

namespace Report

/-- A waypoint with less than the least clearance. -/
def clearanceIssue? (limits : Limits α) (terrain : Terrain α) (waypoint : Waypoint α)
    (index : Nat) : Option (Issue α) :=
  let target := waypoint.target
  if !target.isPlaced then none
  else
    (terrain target.position).bind fun ground =>
      let clearance := target.clearance ground
      if clearance < limits.clearance then
        some (waypoint.issue index
          (.groundClearance target.altitude ground clearance limits.clearance))
      else none

/-- The report on the clearance of a sequence above a terrain. -/
def ofTerrain (limits : Limits α) (terrain : Terrain α) (waypoints : List (Waypoint α)) :
    Report α :=
  ofIssues (waypoints.zipIdx.filterMap fun (waypoint, index) =>
    clearanceIssue? limits terrain waypoint index)

end Report

end FlightPlan
