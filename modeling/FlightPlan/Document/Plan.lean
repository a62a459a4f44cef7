import FlightPlan.Timestamp
import FlightPlan.Scatter
import FlightPlan.Summary
import FlightPlan.Document.Limits
import FlightPlan.Document.Waypoint
import FlightPlan.Json.Reader

/-!
# `FlightPlan.Document.Plan`: plans, their waypoints and totals in documents

A trajectory file is a list of waypoints, or an object whose one `waypoints`
member is such a list, whatever else is in it. The file is taken up as a whole
and must be strict throughout. A saved plan is an object of that kind with a
version, the time of its last change and perhaps limits; it is taken as it is,
and nothing in it is recomputed or checked.
-/

set_option autoImplicit false

namespace FlightPlan

namespace Waypoint

/-- The values of all members with a key. -/
def membersNamed (key : String) (members : List (String × Json)) : List Json :=
  (members.filter fun member => member.1 == key).map Prod.snd

/-- The items of the list that a trajectory file is or holds. -/
def itemsOfFile? : Json → Option (List Json)
  | .array items => some items
  | .object members =>
    match membersNamed "waypoints" members with
    | [.array items] => some items
    | _ => none
  | _ => none

/-- The waypoints of a trajectory file. -/
def listOfText? (ids : FreshIds) (text : String) : Option (List (Waypoint Float)) := do
  let j ← Json.readStrict text
  let items ← itemsOfFile? j
  let (waypoints, _) ← listOfJson? .byNameOrNumber ids 0 items
  some waypoints

end Waypoint

namespace Plan

/-- The fields of a saved plan. -/
def fields : List Json.Field :=
  ["version", "updated_at", "rules", "waypoints"].map Json.field

/-- A saved plan. -/
def ofJson? (ids : FreshIds) (next : Nat) (j : Json) : Option (Plan Float × Nat) := do
  let r ← Json.record fields j
  let version ← r.required "version" Json.nat?
  let updated ← r.required "updated_at" Json.string?
  let limits ← r.getD "rules" Limits.ofJson? Limits.standard
  let items ← r.required "waypoints" (Json.list? some)
  let (waypoints, next) ← Waypoint.listOfJson? .byName ids next items
  if Timestamp.isValid updated then some (⟨version.toUInt64, limits, waypoints⟩, next) else none

end Plan

namespace Scatter

/-- The fields of the settings of a demonstration. -/
def fields : List Json.Field :=
  ["radius_m", "base_altitude_m", "altitude_band_m", "cruise_speed_mps", "hover_s"].map Json.field

/-- The settings of a demonstration, all of them given. -/
def ofJson? (j : Json) : Option (Scatter Float) := do
  let r ← Json.record fields j
  let float (name : String) : Option Float := r.required name Json.float?
  some {
    radius := ← float "radius_m"
    baseAltitude := ← float "base_altitude_m"
    altitudeBand := ← float "altitude_band_m"
    cruiseSpeed := ← float "cruise_speed_mps"
    hover := ← float "hover_s" }

end Scatter

namespace TierCounts

/-- Counts of legs as a document. -/
def toJson (counts : TierCounts) : Json :=
  .object (Tier.all.map fun tier => (tier.text, Json.ofNat (counts.get tier)))

end TierCounts

namespace Summary

/-- A number that may be missing, as a document. -/
def optionToJson (x : Option Float) : Json :=
  (x.map Json.ofFloat).getD .null

/-- Totals as a document. -/
def toJson (summary : Summary Float) : Json :=
  .object [
    ("waypoint_count", Json.ofNat summary.waypointCount),
    ("leg_count", Json.ofNat summary.legCount),
    ("total_distance_m", Json.ofFloat summary.distance),
    ("total_duration_s", Json.ofFloat summary.duration),
    ("max_leg_speed_mps", Json.ofFloat summary.maxSpeed),
    ("legs_by_tier", summary.tiers.toJson),
    ("min_altitude_m", optionToJson summary.minAltitude),
    ("max_altitude_m", optionToJson summary.maxAltitude)]

end Summary

end FlightPlan
