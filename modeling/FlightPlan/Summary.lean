import FlightPlan.Plan

/-!
# `FlightPlan.Summary`: the totals of a sequence

Length, duration, greatest leg speed, legs by tier and the range of altitudes.
Legs without a finite length add nothing to the total, and altitudes that are
not finite are left out of the range.
-/

set_option autoImplicit false

namespace FlightPlan

/-- How many legs fall into each tier. -/
structure TierCounts where
  unknown : Nat
  feasible : Nat
  marginal : Nat
  impossible : Nat
deriving DecidableEq, Repr

namespace TierCounts

/-- No legs. -/
def zero : TierCounts := ⟨0, 0, 0, 0⟩

/-- One more leg of a tier. -/
def add (counts : TierCounts) : Tier → TierCounts
  | .unknown => { counts with unknown := counts.unknown + 1 }
  | .feasible => { counts with feasible := counts.feasible + 1 }
  | .marginal => { counts with marginal := counts.marginal + 1 }
  | .impossible => { counts with impossible := counts.impossible + 1 }

/-- How many legs fall into a tier. -/
def get (counts : TierCounts) : Tier → Nat
  | .unknown => counts.unknown
  | .feasible => counts.feasible
  | .marginal => counts.marginal
  | .impossible => counts.impossible

/-- All legs. -/
def total (counts : TierCounts) : Nat :=
  counts.unknown + counts.feasible + counts.marginal + counts.impossible

end TierCounts

/-- The totals of a sequence. -/
structure Summary (α : Type) where
  waypointCount : Nat
  legCount : Nat
  /-- Meters along all legs. -/
  distance : α
  /-- Seconds from the first waypoint to the last. -/
  duration : α
  maxSpeed : α
  tiers : TierCounts
  minAltitude : Option α
  maxAltitude : Option α

namespace Summary

variable {α : Type} [Scalar α]

/-- A total with one more length added, if that is finite. -/
def addFinite (total length : α) : α :=
  if Scalar.isFinite length then total + length else total

/-- The time from the first waypoint to the last, if that is finite and
positive. -/
def durationOf (waypoints : List (Waypoint α)) : α :=
  match waypoints.head?, waypoints.getLast? with
  | some first, some last =>
    let span := last.target.time - first.target.time
    if Scalar.isFinite span then Scalar.fmax span 0.0 else 0.0
  | _, _ => 0.0

/-- All numbers of a list taken together by `f`, from the first on. -/
def reduce (f : α → α → α) : List α → Option α
  | [] => none
  | x :: rest => some (rest.foldl f x)

/-- The altitudes that are finite. -/
def finiteAltitudes (waypoints : List (Waypoint α)) : List α :=
  (waypoints.map (·.target.altitude)).filter Scalar.isFinite

variable [Geodesy α]

/-- The totals of a sequence. -/
def ofSequence (limits : Limits α) (waypoints : List (Waypoint α)) : Summary α :=
  let targets := waypoints.map Waypoint.target
  let legs := targets.zip targets.tail
  let speeds := legs.map fun (origin, goal) => Speed.required origin goal
  { waypointCount := waypoints.length
    legCount := waypoints.length - 1
    distance := (legs.map fun (origin, goal) => Speed.length origin goal).foldl addFinite 0.0
    duration := durationOf waypoints
    maxSpeed := speeds.foldl Scalar.fmax 0.0
    tiers := (speeds.map limits.tier).foldl TierCounts.add .zero
    minAltitude := reduce Scalar.fmin (finiteAltitudes waypoints)
    maxAltitude := reduce Scalar.fmax (finiteAltitudes waypoints) }

end Summary

/-- The totals of a plan. -/
def Plan.summary {α : Type} [Scalar α] [Geodesy α] (plan : Plan α) : Summary α :=
  Summary.ofSequence plan.limits plan.waypoints

end FlightPlan
