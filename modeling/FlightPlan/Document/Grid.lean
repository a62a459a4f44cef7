import FlightPlan.Terrain
import FlightPlan.Binary64.Scalar
import FlightPlan.Json.Reader
import FlightPlan.Json.Record

/-!
# `FlightPlan.Document.Grid`: elevation grids in documents

A grid is a structure with all its fields given. It is checked as it is read, so
a grid that was read can be sampled. What is wrong with a complete grid is told
even if more text follows it.
-/

set_option autoImplicit false

namespace FlightPlan

/-- Why no grid was read. -/
inductive GridReadError where
  /-- The text or document is not that of a grid. -/
  | malformed
  /-- The grid was refused. -/
  | refused (fault : GridFault)
deriving DecidableEq, Repr

namespace Grid

/-- The fields of a grid. -/
def fields : List Json.Field :=
  ["min_lat", "min_lon", "lat_step_deg", "lon_step_deg", "rows", "cols", "elevations_m"].map
    Json.field

/-- A grid from the values given for its fields, not checked yet. -/
def ofRecord? (r : Json.Record) : Option (Grid Float) := do
  let float (name : String) : Option Float := r.required name Json.float?
  some {
    minLat := ← float "min_lat"
    minLon := ← float "min_lon"
    latStep := ← float "lat_step_deg"
    lonStep := ← float "lon_step_deg"
    rows := ← r.required "rows" Json.nat?
    cols := ← r.required "cols" Json.nat?
    elevations := (← r.required "elevations_m" (Json.list? Json.float?)).toArray }

/-- A grid from a document. -/
def ofJson (j : Json) : Except GridReadError (Grid Float) :=
  match (Json.record fields j).bind ofRecord? with
  | none => .error .malformed
  | some grid => grid.check.mapError .refused

/-- The grid that a text holds. Members that are no fields need only follow the
grammar. -/
def ofText (text : String) : Except GridReadError (Grid Float) :=
  match Json.readPrefix text with
  | none => .error .malformed
  | some (j, rest) => do
    let grid ← ofJson j
    if rest.isEmpty then .ok grid else .error .malformed

/-- A grid as a document. -/
def toJson (grid : Grid Float) : Json :=
  .object [
    ("min_lat", Json.ofFloat grid.minLat), ("min_lon", Json.ofFloat grid.minLon),
    ("lat_step_deg", Json.ofFloat grid.latStep), ("lon_step_deg", Json.ofFloat grid.lonStep),
    ("rows", Json.ofNat grid.rows), ("cols", Json.ofNat grid.cols),
    ("elevations_m", .array (grid.elevations.toList.map Json.ofFloat))]

end Grid

end FlightPlan
