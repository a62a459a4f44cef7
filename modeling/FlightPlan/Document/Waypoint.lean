import FlightPlan.Plan
import FlightPlan.Json.Record

/-!
# `FlightPlan.Document.Waypoint`: waypoints in documents

A waypoint is written with all its parts in a fixed order, those of its leg
among them, and without a peer when it has none. It is read from its position,
altitude and time alone, or with more. Altitude and time have other names in
older documents. A waypoint without an identifier is given a fresh one, and the
parts of its leg that are not given are blank.

Functions that give fresh identifiers take the number of the next one to give
and return the number after the last one given.
-/

set_option autoImplicit false

namespace FlightPlan

namespace WaypointId

/-- An identifier from a document, where no blanks are taken off. -/
def ofJson? : Json → Option WaypointId
  | .string s => read s.toList
  | _ => none

/-- An identifier as a document. -/
def toJson (id : WaypointId) : Json :=
  .string id.toText

end WaypointId

/-- The kinds of heading modes. -/
inductive HeadingMode.Kind where
  | auto
  | manual
deriving DecidableEq, Repr

/-- How a document may say which kind of heading mode it means. -/
inductive HeadingMode.Naming where
  /-- By the name of the kind. -/
  | byName
  /-- In an array also by its place in `Kind.all`. Trajectory files may do so. -/
  | byNameOrNumber
deriving DecidableEq, Repr

namespace HeadingMode

/-- All kinds. -/
def Kind.all : List Kind := [.auto, .manual]

/-- The name of a kind in documents. -/
def Kind.text : Kind → String
  | .auto => "auto"
  | .manual => "manual"

/-- The kind with the given name. -/
def Kind.ofText? (s : String) : Option Kind :=
  all.find? (·.text == s)

/-- The kind that the first item of an array says. -/
def Kind.ofItem? : Naming → Json → Option Kind
  | _, .string s => ofText? s
  | .byNameOrNumber, .number (.natural n) => all[n]?
  | _, _ => none

/-- A heading mode of a kind with the value given for its angle. A manual
heading needs an angle, and an automatic one has none. -/
def ofKind? : Kind → Option Json → Option (HeadingMode Float)
  | .auto, none => some .auto
  | .auto, some .null => some .auto
  | .auto, some _ => none
  | .manual, degrees => (degrees.bind Json.float?).map .manual

/-- The fields: the kind of the mode, and the angle of a manual heading. -/
def fields : List Json.Field :=
  [Json.field "mode", Json.field "heading_deg"]

/-- A heading mode from a document. In the form of an array both values must be
given. -/
def ofJson? (naming : Naming) : Json → Option (HeadingMode Float)
  | .array [kind, degrees] => do ofKind? (← Kind.ofItem? naming kind) (some degrees)
  | .object members => do
    let r ← Json.record fields (.object members)
    let name ← r.required "mode" Json.name?
    ofKind? (← Kind.ofText? name) (r.get? "heading_deg")
  | _ => none

/-- A heading mode as a document. -/
def toJson : HeadingMode Float → Json
  | .auto => .object [("mode", .string "auto")]
  | .manual degrees =>
    .object [("mode", .string "manual"), ("heading_deg", Json.ofFloat degrees)]

end HeadingMode

namespace Waypoint

/-- The fields of a waypoint, in the order they are written. -/
def fields : List Json.Field :=
  [Json.field "id", Json.field "name", Json.field "lat", Json.field "lon",
    ⟨"altitude_m", ["alt", "altitude"]⟩, ⟨"time_from_start_s", ["time_from_start"]⟩,
    Json.field "heading_mode", Json.field "heading_deg", Json.field "estimated_speed_mps",
    Json.field "speed_feasible", Json.field "calculated_heading_deg", Json.field "leg_peer"]

/-- A waypoint from the values given for its fields, except that `id` stands for
an identifier that is not given. -/
def ofRecord? (naming : HeadingMode.Naming) (id : WaypointId) (r : Json.Record) :
    Option (Waypoint Float) := do
  let target : Target Float := {
    id := ← r.getD "id" WaypointId.ofJson? id
    name := ← r.getD "name" Json.string? ""
    position := ⟨← r.required "lat" Json.float?, ← r.required "lon" Json.float?⟩
    altitude := ← r.required "altitude_m" Json.float?
    time := ← r.required "time_from_start_s" Json.float?
    headingMode := ← r.getD "heading_mode" (HeadingMode.ofJson? naming) .auto }
  let leg : Leg Float := {
    heading := ← r.getD "heading_deg" Json.float? 0.0
    speed := ← r.getD "estimated_speed_mps" Json.float? 0.0
    feasible := ← r.getD "speed_feasible" Json.bool? false
    course := ← r.getD "calculated_heading_deg" Json.float? 0.0
    peer := ← r.optional "leg_peer" WaypointId.ofJson? }
  some ⟨target, leg⟩

/-- A waypoint from a document. -/
def ofJson? (naming : HeadingMode.Naming) (ids : FreshIds) (next : Nat) (j : Json) :
    Option (Waypoint Float × Nat) := do
  let r ← Json.record fields j
  let waypoint ← ofRecord? naming (ids next) r
  some (waypoint, if (r.get? "id").isSome then next else next + 1)

/-- The waypoints of a list in a document. -/
def listOfJson? (naming : HeadingMode.Naming) (ids : FreshIds) (next : Nat) :
    List Json → Option (List (Waypoint Float) × Nat)
  | [] => some ([], next)
  | j :: rest => do
    let (waypoint, next) ← ofJson? naming ids next j
    let (waypoints, next) ← listOfJson? naming ids next rest
    some (waypoint :: waypoints, next)

/-- A waypoint as a document. -/
def toJson (waypoint : Waypoint Float) : Json :=
  let target := waypoint.target
  let leg := waypoint.leg
  .object <|
    [("id", target.id.toJson), ("name", .string target.name),
      ("lat", Json.ofFloat target.position.lat), ("lon", Json.ofFloat target.position.lon),
      ("altitude_m", Json.ofFloat target.altitude),
      ("time_from_start_s", Json.ofFloat target.time),
      ("heading_mode", target.headingMode.toJson), ("heading_deg", Json.ofFloat leg.heading),
      ("estimated_speed_mps", Json.ofFloat leg.speed), ("speed_feasible", .bool leg.feasible),
      ("calculated_heading_deg", Json.ofFloat leg.course)]
    ++ (leg.peer.map fun id => ("leg_peer", id.toJson)).toList

/-- Waypoints as a document. -/
def listToJson (waypoints : List (Waypoint Float)) : Json :=
  .array (waypoints.map toJson)

end Waypoint

namespace Revision

/-- The fields of a revision. -/
def fields : List Json.Field :=
  ["name", "lat", "lon", "altitude_m", "time_from_start_s", "heading_mode"].map Json.field

/-- A revision from the values given for its fields. -/
def ofRecord? (r : Json.Record) : Option (Revision Float) := do
  some {
    name := ← r.optional "name" Json.string?
    lat := ← r.optional "lat" Json.float?
    lon := ← r.optional "lon" Json.float?
    altitude := ← r.optional "altitude_m" Json.float?
    time := ← r.optional "time_from_start_s" Json.float?
    headingMode := ← r.optional "heading_mode" (HeadingMode.ofJson? .byName) }

/-- A revision from a document. In the form of an array every value must be
given. -/
def ofJson? (j : Json) : Option (Revision Float) :=
  match j with
  | .array items => if items.length = fields.length then decode else none
  | _ => decode
where
  decode := (Json.record fields j).bind ofRecord?

end Revision

end FlightPlan
