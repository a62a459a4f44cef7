/-!
# `FlightPlan.Scalar`: the numbers a plan is measured in

Positions, altitudes, times and speeds are all of one number type `α`. The
program runs on binary64 doubles (`FlightPlan.Binary64.Scalar`), but nothing in
the theory of plans needs more than the operations listed here. A statement
about plans can therefore be read over any other numbers that have them, exact
rationals for instance, where arithmetic does not round.

* `Scalar` holds arithmetic, comparison and the roundings to whole numbers.
* `Elementary` holds the square root and the trigonometric functions, which only
  the geometry of the sphere uses.

The functions after the classes are derived from them: `fmax` and `fmin` pass
over what is not a number, `clamp` keeps a number between two bounds, `emod` is
the remainder that takes the sign of its divisor, and `roundTenth` keeps one
decimal.
-/

set_option autoImplicit false

namespace FlightPlan

/-- Numbers with arithmetic, comparison, decimal literals and the roundings to
whole numbers. A number may fail to be finite, and `isNaN` singles out those
that compare with nothing. -/
class Scalar (α : Type) extends
    Add α, Sub α, Mul α, Div α, Neg α, LT α, LE α, OfScientific α where
  /-- Comparison with `<` can be run. -/
  decLT : DecidableLT α
  /-- Comparison with `≤` can be run. -/
  decLE : DecidableLE α
  /-- The value that is not a number. -/
  isNaN : α → Bool
  /-- Neither infinite nor `isNaN`. -/
  isFinite : α → Bool
  /-- The greatest whole number that is not above the argument. -/
  floor : α → α
  /-- The least whole number that is not below the argument. -/
  ceil : α → α
  /-- The nearest whole number, where a half goes away from zero. -/
  round : α → α
  /-- The remainder of the division that cuts its quotient off toward zero. It
  has the sign of the dividend and loses no digit. -/
  rem : α → α → α
  /-- The number nearest to a natural number. -/
  ofNat : Nat → α
  /-- The whole part as an index into 64-bit storage: `0` for negative numbers
  and for what is not a number, the greatest index for what lies beyond. -/
  toIndex : α → Nat

attribute [reducible, instance] Scalar.decLT Scalar.decLE

/-- The functions that the geometry of the sphere needs beside arithmetic. -/
class Elementary (α : Type) where
  /-- The square root. -/
  sqrt : α → α
  /-- The sine of an angle in radians. -/
  sin : α → α
  /-- The cosine of an angle in radians. -/
  cos : α → α
  /-- The angle in `[-π/2, π/2]` with the given sine. -/
  asin : α → α
  /-- The direction of the point whose ordinate comes first and whose abscissa
  comes second. -/
  atan2 : α → α → α

namespace Scalar

variable {α : Type} [Scalar α]

/-- The greater of two numbers. What is not a number gives way to the other
argument, and of two equal numbers, such as the zeros of either sign, the second
is kept. -/
def fmax (a b : α) : α :=
  if isNaN a then b
  else if isNaN b ∨ b < a then a
  else b

/-- The lesser of two numbers, under the rules of `fmax`. -/
def fmin (a b : α) : α :=
  if isNaN a then b
  else if isNaN b ∨ a < b then a
  else b

/-- The number of `[low, high]` nearest to `x`. What is not a number stays what
it is. -/
def clamp (low high x : α) : α :=
  if x < low then low else if high < x then high else x

/-- The remainder of `x` that is not negative, for a positive divisor. A tiny
negative remainder can round up to the divisor itself. -/
def emod (x divisor : α) : α :=
  let r := rem x divisor
  if r < 0.0 then r + divisor else r

/-- One decimal is kept, and half a tenth goes away from zero. -/
def roundTenth (x : α) : α :=
  round (x * 10.0) / 10.0

end Scalar

end FlightPlan
