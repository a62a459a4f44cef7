import FlightPlan.Tier
import FlightPlan.Json.Reader
import FlightPlan.Json.Record

/-!
# `FlightPlan.Document.Limits`: limits and tiers in documents

Limits are a structure of five numbers. Each may be left out and is then the
standard one. A tier is its name.
-/

set_option autoImplicit false

namespace FlightPlan

namespace Limits

/-- The fields, in the order of `Limits.Name.all`. -/
def fields : List Json.Field :=
  Name.all.map fun name => Json.field name.text

/-- Limits from a document. -/
def ofJson? (j : Json) : Option (Limits Float) := do
  let r ← Json.record fields j
  let threshold (name : Name) : Option Float :=
    r.getD name.text Json.float? (standard.get name)
  some {
    meaningful := ← threshold .meaningful
    feasible := ← threshold .feasible
    marginal := ← threshold .marginal
    ceiling := ← threshold .ceiling
    clearance := ← threshold .clearance }

/-- Limits as a document. -/
def toJson (limits : Limits Float) : Json :=
  .object (Name.all.map fun name => (name.text, Json.ofFloat (limits.get name)))

/-- The limits that a text holds. Members that are no fields need only follow
the grammar. -/
def ofText? (text : String) : Option (Limits Float) :=
  (Json.read text).bind ofJson?

end Limits

namespace Tier

/-- A tier from a document, where it is its name. -/
def ofJson? (j : Json) : Option Tier :=
  j.name?.bind ofText?

/-- A tier as a document. -/
def toJson (tier : Tier) : Json :=
  .string tier.text

end Tier

end FlightPlan
