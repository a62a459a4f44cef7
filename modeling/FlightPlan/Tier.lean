import FlightPlan.Limits

/-!
# `FlightPlan.Tier`: how hard a speed is to fly

Every speed falls into one of four tiers, of ascending severity. The bounds of
the feasible and the marginal tier belong to them. Only the ceiling decides
whether a leg is reported, and that is not a tier of its own.
-/

set_option autoImplicit false

namespace FlightPlan

/-- How hard a required speed is to fly. -/
inductive Tier where
  /-- No meaningful speed. -/
  | unknown
  /-- Within normal operation. -/
  | feasible
  /-- Possible but aggressive. -/
  | marginal
  /-- Beyond the aircraft. -/
  | impossible
deriving DecidableEq, Repr

namespace Tier

/-- All tiers, from the least severe. -/
def all : List Tier := [.unknown, .feasible, .marginal, .impossible]

/-- The severity as a number. -/
def severity : Tier → Nat
  | .unknown => 0
  | .feasible => 1
  | .marginal => 2
  | .impossible => 3

/-- Tiers are compared by severity. -/
instance : Ord Tier where
  compare a b := compare a.severity b.severity

/-- Tiers are ordered by their speeds. -/
instance : LE Tier where
  le a b := a.severity ≤ b.severity

/-- The order of tiers can be run. -/
instance : DecidableLE Tier :=
  fun a b => inferInstanceAs (Decidable (a.severity ≤ b.severity))

/-- The name in documents and on displays. -/
def text : Tier → String
  | .unknown => "unknown"
  | .feasible => "feasible"
  | .marginal => "marginal"
  | .impossible => "impossible"

/-- The tier with the given name. -/
def ofText? (s : String) : Option Tier :=
  all.find? (·.text == s)

end Tier

namespace Limits

variable {α : Type} [Scalar α]

/-- The tier of a speed. What is not a number is no meaningful speed. -/
def tier (limits : Limits α) (speed : α) : Tier :=
  if Scalar.isNaN speed ∨ speed < limits.meaningful then .unknown
  else if speed ≤ limits.feasible then .feasible
  else if speed ≤ limits.marginal then .marginal
  else .impossible

/-- The speed is above the ceiling. -/
def exceedsCeiling (limits : Limits α) (speed : α) : Bool :=
  limits.ceiling < speed

end Limits

end FlightPlan
