import FlightPlan.Scalar
import FlightPlan.Binary64.Rounding
import FlightPlan.Binary64.Parts

/-!
# `FlightPlan.Binary64.Scalar`: plans measured in doubles

The numbers the program runs on. Arithmetic and comparison are those of
binary64, the roundings and the remainder are the exact ones of
`FlightPlan.Binary64.Rounding` and `FlightPlan.Binary64.Parts`, and the
trigonometric functions are the platform's.
-/

set_option autoImplicit false

namespace FlightPlan

/-- Doubles can be measured in. -/
instance : Scalar Float where
  decLT := inferInstance
  decLE := inferInstance
  isNaN := Float.isNaN
  isFinite := Float.isFinite
  floor := Binary64.floor
  ceil := Binary64.ceil
  round := Binary64.round
  rem := Binary64.remainder
  ofNat := Float.ofNat
  toIndex x := x.toUInt64.toNat

/-- The elementary functions of the platform. -/
instance : Elementary Float where
  sqrt := Float.sqrt
  sin := Float.sin
  cos := Float.cos
  asin := Float.asin
  atan2 := Float.atan2

end FlightPlan
