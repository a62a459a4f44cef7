/-!
# `FlightPlan.Decimal.Basic`: decimal numbers and the doubles nearest to them

A `Decimal` is what a number written in digits says: a sign, the digits as one
natural number, and the power of ten of the last digit. `Decimal.nearest` is the
double that its value rounds to. Beyond the range of doubles the value is
infinite, and below half the least positive double it is zero. Both cases are
told from the number of digits alone, so that an absurd exponent costs nothing.
-/

set_option autoImplicit false

namespace FlightPlan

/-- The number `± coefficient * 10 ^ exponent`. -/
structure Decimal where
  /-- A minus sign, which zero can carry too. -/
  negative : Bool
  /-- All digits as one number. -/
  coefficient : Nat
  /-- The power of ten of the last digit. -/
  exponent : Int
deriving DecidableEq, Repr

namespace Decimal

/-- How many decimal digits a natural number is written with. -/
def digitCount (n : Nat) : Nat :=
  (Nat.toDigits 10 n).length

/-- The place of the first digit: `coefficient * 10 ^ exponent` is at least ten
to this power and less than ten times that, unless it is zero. -/
def firstPlace (d : Decimal) : Int :=
  d.exponent + digitCount d.coefficient - 1

/-- The magnitude rounded to a double, a tie going to the even significand. The
greatest double begins at place 308 and half the least one at place -324. -/
def nearestMagnitude (d : Decimal) : Float :=
  if d.coefficient = 0 then 0.0
  else if 310 < d.firstPlace then 1.0 / 0.0
  else if d.firstPlace < -330 then 0.0
  else Float.ofScientific d.coefficient (decide (d.exponent < 0)) d.exponent.natAbs

/-- The double nearest to a decimal, with the decimal's sign on zero as well. -/
def nearest (d : Decimal) : Float :=
  if d.negative then -d.nearestMagnitude else d.nearestMagnitude

end Decimal

end FlightPlan
