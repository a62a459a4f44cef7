import FlightPlan.Message
import FlightPlan.Binary64.Scalar

/-!
# `FlightPlan.Limits`: the thresholds a plan is held to

Three speeds bound the feasibility tiers, a fourth is the ceiling above which a
leg is reported, and one height is the least clearance above ground. They make
sense together when all are finite and the speeds ascend from zero;
`Limits.faults` lists every way in which they do not.
-/

set_option autoImplicit false

namespace FlightPlan

/-- The thresholds, in meters per second and meters. -/
structure Limits (α : Type) where
  /-- Slower than this is no meaningful speed. -/
  meaningful : α
  /-- The fastest feasible speed. -/
  feasible : α
  /-- The fastest marginal speed. -/
  marginal : α
  /-- Faster than this is reported. -/
  ceiling : α
  /-- The least height above ground. -/
  clearance : α
deriving BEq

/-- The names of the thresholds. -/
inductive Limits.Name where
  | meaningful
  | feasible
  | marginal
  | ceiling
  | clearance
deriving DecidableEq, Repr

/-- A way in which thresholds do not make sense together. -/
inductive Limits.Fault (α : Type) where
  /-- A threshold is not finite. -/
  | notFinite (name : Limits.Name)
  /-- The least meaningful speed is below zero. -/
  | negative
  /-- A speed is above the one that should bound it. -/
  | outOfOrder (lower : Limits.Name) (lowerValue : α) (upper : Limits.Name) (upperValue : α)

namespace Limits

/-- The thresholds of a plan that sets none itself. -/
def standard {α : Type} [Scalar α] : Limits α where
  meaningful := 0.1
  feasible := 12.0
  marginal := 20.0
  ceiling := 30.0
  clearance := 5.0

/-- All names, in the order they are listed in. -/
def Name.all : List Name :=
  [.meaningful, .feasible, .marginal, .ceiling, .clearance]

/-- The threshold of a name. -/
def get {α : Type} (limits : Limits α) : Name → α
  | .meaningful => limits.meaningful
  | .feasible => limits.feasible
  | .marginal => limits.marginal
  | .ceiling => limits.ceiling
  | .clearance => limits.clearance

/-- The speeds that must not exceed one another. -/
def ascending : List (Name × Name) :=
  [(.meaningful, .feasible), (.feasible, .marginal), (.marginal, .ceiling)]

/-- Everything wrong with the thresholds: values that are not finite, then a
negative speed, then pairs out of order. -/
def faults {α : Type} [Scalar α] (limits : Limits α) : List (Fault α) :=
  ((Name.all.filter fun name => !Scalar.isFinite (limits.get name)).map .notFinite)
    ++ (if limits.meaningful < 0.0 then [.negative] else [])
    ++ ascending.filterMap fun (lower, upper) =>
        if limits.get upper < limits.get lower then
          some (.outOfOrder lower (limits.get lower) upper (limits.get upper))
        else none

/-- The thresholds make sense together. -/
def isValid {α : Type} [Scalar α] (limits : Limits α) : Bool :=
  limits.faults.isEmpty

/-- The name as documents and messages have it. -/
def Name.text : Name → String
  | .meaningful => "min_meaningful_mps"
  | .feasible => "max_feasible_mps"
  | .marginal => "max_marginal_mps"
  | .ceiling => "absolute_max_mps"
  | .clearance => "min_ground_clearance_m"

/-- The message of a fault. -/
def Fault.message : Fault Float → String
  | .notFinite name => name.text ++ " must be finite"
  | .negative => Name.meaningful.text ++ " cannot be negative"
  | .outOfOrder lower lowerValue upper upperValue =>
    lower.text ++ " (" ++ Message.number lowerValue ++ ") must not exceed "
      ++ upper.text ++ " (" ++ Message.number upperValue ++ ")"

end Limits

end FlightPlan
