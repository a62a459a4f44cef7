import FlightPlan.Legs
import FlightPlan.Message

/-!
# `FlightPlan.Plan`: a plan and its edits

A plan is a sequence of waypoints under limits, with a version that counts its
edits. Every edit gives a new plan whose legs are up to date; an edit that is
refused gives an `EditError` and leaves the plan it was tried on as it was.

A waypoint can only enter a plan with a valid position, a finite altitude and an
identifier that is not in the plan yet.
-/

set_option autoImplicit false

namespace FlightPlan

/-- Why an edit was refused. -/
inductive EditError (α : Type) where
  | unknownWaypoint (id : WaypointId)
  | indexOutOfRange (index count : Nat)
  | duplicateWaypoint (id : WaypointId)
  | invalidPosition (target : Target α)

/-- The message of a refused edit. -/
def EditError.message : EditError Float → String
  | .unknownWaypoint id => "waypoint " ++ id.toText ++ " not found in trajectory"
  | .indexOutOfRange index count =>
    "index " ++ index.repr ++ " out of range for trajectory of " ++ count.repr ++ " waypoints"
  | .duplicateWaypoint id => "waypoint " ++ id.toText ++ " already exists in trajectory"
  | .invalidPosition target =>
    "invalid position for waypoint " ++ target.id.toText
      ++ ": lat=" ++ Message.number target.position.lat
      ++ ", lon=" ++ Message.number target.position.lon
      ++ ", altitude=" ++ Message.number target.altitude

/-- New values for some parts of a target. -/
structure Revision (α : Type) where
  name : Option String
  lat : Option α
  lon : Option α
  altitude : Option α
  time : Option α
  headingMode : Option (HeadingMode α)

/-- A target with the parts that a revision gives replaced. -/
def Target.revise {α : Type} (target : Target α) (r : Revision α) : Target α :=
  { target with
    name := r.name.getD target.name
    position := ⟨r.lat.getD target.position.lat, r.lon.getD target.position.lon⟩
    altitude := r.altitude.getD target.altitude
    time := r.time.getD target.time
    headingMode := r.headingMode.getD target.headingMode }

/-- A plan. -/
structure Plan (α : Type) where
  /-- How many edits have led here, modulo `2 ^ 64`. -/
  version : UInt64
  limits : Limits α
  waypoints : List (Waypoint α)

namespace Plan

variable {α : Type}

/-- The plan without waypoints. -/
def empty (limits : Limits α) : Plan α :=
  ⟨0, limits, []⟩

/-- The index of a waypoint. -/
def indexOf? (plan : Plan α) (id : WaypointId) : Option Nat :=
  plan.waypoints.findIdx? (·.target.id == id)

/-- The waypoint with an identifier. -/
def get? (plan : Plan α) (id : WaypointId) : Option (Waypoint α) :=
  plan.waypoints.find? (·.target.id == id)

/-- The plan after one more edit. -/
def advance (plan : Plan α) (waypoints : List (Waypoint α)) : Plan α :=
  { plan with version := plan.version + 1, waypoints }

/-- The index of a waypoint that an edit needs. -/
def findIndex (plan : Plan α) (id : WaypointId) : Except (EditError α) Nat :=
  match plan.indexOf? id with
  | some index => .ok index
  | none => .error (.unknownWaypoint id)

variable [Scalar α]

/-- Refuses a target that cannot be flown to. -/
def checkPlaced (target : Target α) : Except (EditError α) Unit :=
  if target.isPlaced then .ok () else .error (.invalidPosition target)

/-- Refuses the first waypoint that cannot be flown to or repeats an identifier
that was seen before it. -/
def checkAll (seen : List WaypointId) : List (Waypoint α) → Except (EditError α) Unit
  | [] => .ok ()
  | waypoint :: rest => do
    let id := waypoint.target.id
    checkPlaced waypoint.target
    if seen.contains id then .error (.duplicateWaypoint id)
    else checkAll (id :: seen) rest

variable [Geodesy α]

/-- The plan of a given sequence. -/
def ofWaypoints (limits : Limits α) (waypoints : List (Waypoint α)) :
    Except (EditError α) (Plan α) := do
  checkAll [] waypoints
  .ok ⟨0, limits, Legs.recompute limits waypoints⟩

/-- A waypoint put in before `index`. At the end of the plan there is no leg to
point along, so an automatic heading is fixed to that of the arrival. -/
def insert (plan : Plan α) (index : Nat) (waypoint : Waypoint α) :
    Except (EditError α) (Plan α) := do
  let count := plan.waypoints.length
  let id := waypoint.target.id
  if count < index then .error (.indexOutOfRange index count)
  else if (plan.get? id).isSome then .error (.duplicateWaypoint id)
  else
    checkPlaced waypoint.target
    let grown := Legs.refresh plan.limits id (plan.waypoints.insertIdx index waypoint)
    .ok (plan.advance (if index = count then Legs.pinTail grown else grown))

/-- A waypoint put in at the end. -/
def append (plan : Plan α) (waypoint : Waypoint α) : Except (EditError α) (Plan α) :=
  plan.insert plan.waypoints.length waypoint

/-- A waypoint taken out. -/
def remove (plan : Plan α) (id : WaypointId) : Except (EditError α) (Plan α) := do
  let index ← plan.findIndex id
  .ok (plan.advance (Legs.recompute plan.limits (plan.waypoints.eraseIdx index)))

/-- The list with the entry at one index taken to another. -/
def relocate {β : Type} (entries : List β) (index goal : Nat) : List β :=
  match entries[index]? with
  | some entry => (entries.eraseIdx index).insertIdx goal entry
  | none => entries

/-- A waypoint taken to another index. -/
def move (plan : Plan α) (id : WaypointId) (goal : Nat) : Except (EditError α) (Plan α) := do
  let index ← plan.findIndex id
  let count := plan.waypoints.length
  if count ≤ goal then .error (.indexOutOfRange goal count)
  else
    let moved := relocate plan.waypoints index goal
    .ok (plan.advance (Legs.refresh plan.limits id moved))

/-- A waypoint with parts of its target replaced. -/
def update (plan : Plan α) (id : WaypointId) (revision : Revision α) :
    Except (EditError α) (Plan α) :=
  match plan.indexOf? id, plan.get? id with
  | some index, some waypoint => do
    let target := waypoint.target.revise revision
    checkPlaced target
    let edited := plan.waypoints.set index { waypoint with target }
    .ok (plan.advance (Legs.refresh plan.limits id edited))
  | _, _ => .error (.unknownWaypoint id)

omit [Scalar α] [Geodesy α] in
/-- All waypoints taken out. -/
def clear (plan : Plan α) : Plan α :=
  plan.advance []

/-- The plan under other limits. -/
def withLimits (plan : Plan α) (limits : Limits α) : Plan α :=
  { plan.advance (Legs.recompute limits plan.waypoints) with limits }

end Plan

end FlightPlan
