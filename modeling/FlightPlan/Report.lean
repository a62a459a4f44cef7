import FlightPlan.Plan
import FlightPlan.Message

/-!
# `FlightPlan.Report`: what is wrong with a sequence

A report lists issues and never changes anything. The checks here find
waypoints that are not later than the one before them, and waypoints whose leg
is faster than the ceiling. Issues with the ground are found in
`FlightPlan.Clearance`. A report is valid when it has no issue, and reports can
be merged.
-/

set_option autoImplicit false

namespace FlightPlan

/-- What is wrong with a waypoint. -/
inductive Finding (α : Type) where
  /-- It is not later than the waypoint before it. -/
  | timeOrder (previousName : String) (previousTime time : α)
  /-- Its leg requires more speed than the ceiling allows. -/
  | speedLimit (speed limit : α)
  /-- It is too close to the ground, or below it. -/
  | groundClearance (altitude ground clearance minimum : α)

/-- A finding and the waypoint it is about. -/
structure Issue (α : Type) where
  index : Nat
  id : WaypointId
  name : String
  finding : Finding α

/-- The result of checks. -/
structure Report (α : Type) where
  valid : Bool
  issues : List (Issue α)

/-- The message of an issue. -/
def Issue.message (issue : Issue Float) : String :=
  let subject := "Waypoint \"" ++ issue.name ++ "\""
  match issue.finding with
  | .timeOrder previousName previousTime time =>
    subject ++ " time (" ++ Message.number time ++ "s) must be after \"" ++ previousName
      ++ "\" (" ++ Message.number previousTime ++ "s)"
  | .speedLimit speed limit =>
    subject ++ " requires " ++ Message.tenths speed
      ++ " m/s, exceeding safe operational limit of " ++ Message.tenths limit ++ " m/s"
  | .groundClearance _ _ clearance minimum =>
    subject ++ " is " ++ Message.tenths clearance ++ "m above ground, below minimum clearance of "
      ++ Message.tenths minimum ++ "m"

namespace Report

variable {α : Type}

/-- The report that lists these issues. -/
def ofIssues (issues : List (Issue α)) : Report α :=
  ⟨issues.isEmpty, issues⟩

/-- The issues of both reports, those of the first in front. -/
def merge (first second : Report α) : Report α :=
  ofIssues (first.issues ++ second.issues)

/-- The messages of all issues. -/
def messages (report : Report Float) : List String :=
  report.issues.map Issue.message

end Report

namespace Waypoint

variable {α : Type}

/-- A finding about a waypoint at an index. -/
def issue (waypoint : Waypoint α) (index : Nat) (finding : Finding α) : Issue α :=
  ⟨index, waypoint.target.id, waypoint.target.name, finding⟩

end Waypoint

namespace Report

variable {α : Type} [Scalar α]

/-- A waypoint that is not later than the one before it. Times that do not
compare are not later either. -/
def timeIssue? (previous current : Waypoint α) (index : Nat) : Option (Issue α) :=
  let before := previous.target.time
  let time := current.target.time
  if before < time then none
  else some (current.issue index (.timeOrder previous.target.name before time))

/-- The waypoints that are not later than the one before them. -/
def timeIssues (waypoints : List (Waypoint α)) : List (Issue α) :=
  ((waypoints.zip waypoints.tail).zipIdx 1).filterMap fun ((previous, current), index) =>
    timeIssue? previous current index

variable [Geodesy α]

/-- A waypoint whose leg is above the ceiling. -/
def speedIssue? (limits : Limits α) (p : Placed α) (index : Nat) : Option (Issue α) :=
  p.speed?.bind fun speed =>
    if limits.exceedsCeiling speed then
      some (p.here.issue index (.speedLimit speed limits.ceiling))
    else none

/-- The waypoints whose leg is above the ceiling. -/
def speedIssues (limits : Limits α) (waypoints : List (Waypoint α)) : List (Issue α) :=
  (Legs.placed waypoints).zipIdx.filterMap fun (p, index) => speedIssue? limits p index

/-- The report on the times and speeds of a sequence. -/
def ofSequence (limits : Limits α) (waypoints : List (Waypoint α)) : Report α :=
  ofIssues (timeIssues waypoints ++ speedIssues limits waypoints)

end Report

/-- The report on a plan. -/
def Plan.report {α : Type} [Scalar α] [Geodesy α] (plan : Plan α) : Report α :=
  Report.ofSequence plan.limits plan.waypoints

end FlightPlan
