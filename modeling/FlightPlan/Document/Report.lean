import FlightPlan.Report
import FlightPlan.Document.Waypoint

/-!
# `FlightPlan.Document.Report`: reports in documents

A report is its verdict and its issues. An issue is written with the kind of its
finding in front, then the waypoint it is about, then what the kind needs. It is
read with its members in any order, or as an array in the written order.
-/

set_option autoImplicit false

namespace FlightPlan

/-- The kinds of findings. -/
inductive Finding.Kind where
  | timeOrder
  | speedLimit
  | groundClearance
deriving DecidableEq, Repr

namespace Finding

/-- All kinds. -/
def Kind.all : List Kind := [.timeOrder, .speedLimit, .groundClearance]

/-- The name of a kind in documents. -/
def Kind.text : Kind → String
  | .timeOrder => "time_order"
  | .speedLimit => "speed_limit"
  | .groundClearance => "ground_clearance"

/-- The kind with the given name. -/
def Kind.ofText? (s : String) : Option Kind :=
  all.find? (·.text == s)

/-- The names of what a kind needs beside the waypoint. -/
def Kind.fieldNames : Kind → List String
  | .timeOrder => ["previous_name", "previous_time_s", "time_s"]
  | .speedLimit => ["speed_mps", "limit_mps"]
  | .groundClearance => ["altitude_m", "ground_elevation_m", "clearance_m", "min_clearance_m"]

/-- The kind of a finding. -/
def kind {α : Type} : Finding α → Kind
  | .timeOrder .. => .timeOrder
  | .speedLimit .. => .speedLimit
  | .groundClearance .. => .groundClearance

/-- A finding of a kind from the values given for its fields. -/
def ofRecord? (kind : Kind) (r : Json.Record) : Option (Finding Float) :=
  let float (name : String) : Option Float := r.required name Json.float?
  match kind with
  | .timeOrder => do
    some (.timeOrder (← r.required "previous_name" Json.string?) (← float "previous_time_s")
      (← float "time_s"))
  | .speedLimit => do
    some (.speedLimit (← float "speed_mps") (← float "limit_mps"))
  | .groundClearance => do
    some (.groundClearance (← float "altitude_m") (← float "ground_elevation_m")
      (← float "clearance_m") (← float "min_clearance_m"))

/-- What the kind of a finding needs, as members. -/
def toMembers : Finding Float → List (String × Json)
  | .timeOrder previousName previousTime time =>
    [("previous_name", .string previousName), ("previous_time_s", Json.ofFloat previousTime),
      ("time_s", Json.ofFloat time)]
  | .speedLimit speed limit =>
    [("speed_mps", Json.ofFloat speed), ("limit_mps", Json.ofFloat limit)]
  | .groundClearance altitude ground clearance minimum =>
    [("altitude_m", Json.ofFloat altitude), ("ground_elevation_m", Json.ofFloat ground),
      ("clearance_m", Json.ofFloat clearance), ("min_clearance_m", Json.ofFloat minimum)]

end Finding

namespace Issue

/-- The fields of an issue with a finding of some kind, the kind in front. -/
def fields (kind : Finding.Kind) : List Json.Field :=
  (["type", "index", "waypoint_id", "name"] ++ kind.fieldNames).map Json.field

/-- The kind that an issue says it is of: its first `type` member, or the first
item of its array. -/
def kind? : Json → Option Finding.Kind
  | .object members => (members.lookup "type").bind ofName
  | .array (first :: _) => ofName first
  | _ => none
where
  ofName (j : Json) : Option Finding.Kind := j.string?.bind Finding.Kind.ofText?

/-- An issue from a document. -/
def ofJson? (j : Json) : Option (Issue Float) := do
  let kind ← kind? j
  let r ← Json.record (fields kind) j
  some {
    index := ← r.required "index" Json.nat?
    id := ← r.required "waypoint_id" WaypointId.ofJson?
    name := ← r.required "name" Json.string?
    finding := ← Finding.ofRecord? kind r }

/-- An issue as a document. -/
def toJson (issue : Issue Float) : Json :=
  .object <|
    [("type", .string issue.finding.kind.text), ("index", Json.ofNat issue.index),
      ("waypoint_id", issue.id.toJson), ("name", .string issue.name)]
    ++ issue.finding.toMembers

end Issue

namespace Report

/-- The fields of a report. -/
def fields : List Json.Field :=
  [Json.field "valid", Json.field "issues"]

/-- A report from a document. Its verdict is taken as it is given. -/
def ofJson? (j : Json) : Option (Report Float) := do
  let r ← Json.record fields j
  some {
    valid := ← r.required "valid" Json.bool?
    issues := ← r.required "issues" (Json.list? Issue.ofJson?) }

/-- A report as a document. -/
def toJson (report : Report Float) : Json :=
  .object [("valid", .bool report.valid), ("issues", .array (report.issues.map Issue.toJson))]

end Report

end FlightPlan
