import FlightPlan.Scalar

/-!
# `FlightPlan.Position`: places on the Earth

A position is a latitude and a longitude in decimal degrees. It is valid when
both are finite and in the usual ranges, poles and date line included.
-/

set_option autoImplicit false

namespace FlightPlan

/-- A horizontal position in decimal degrees. -/
structure Position (α : Type) where
  lat : α
  lon : α
deriving BEq

namespace Position

variable {α : Type} [Scalar α]

/-- Both coordinates are finite. -/
def isFinite (p : Position α) : Bool :=
  Scalar.isFinite p.lat && Scalar.isFinite p.lon

/-- The number lies between a bound and its negative, both included. -/
def within (bound x : α) : Bool :=
  -bound ≤ x && x ≤ bound

/-- Both coordinates are finite and in range. -/
def isValid (p : Position α) : Bool :=
  p.isFinite && within 90.0 p.lat && within 180.0 p.lon

end Position

end FlightPlan
