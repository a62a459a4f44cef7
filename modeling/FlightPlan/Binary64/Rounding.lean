/-!
# `FlightPlan.Binary64.Rounding`: whole numbers among the doubles

A double of magnitude `2 ^ 52` or more is a whole number already, and so is left
alone, like the infinities and what is not a number. Below that bound the whole
part fits a 64-bit word, the double of that word is exact, and what remains
after taking it away is exact too. `floor`, `ceil` and `round` are read off
these two parts, with the sign of a zero result kept.
-/

set_option autoImplicit false

namespace FlightPlan.Binary64

/-- The magnitude from which every double is a whole number. -/
def wholeFrom : Float := 4503599627370496.0

/-- The whole part of a magnitude below `wholeFrom`. -/
def wholePart (magnitude : Float) : Float :=
  magnitude.toUInt64.toFloat

/-- The greatest whole double that is not above `x`. -/
def floor (x : Float) : Float :=
  if x.abs < wholeFrom then
    let whole := wholePart x.abs
    if whole == x.abs then x
    else if x < 0.0 then -(whole + 1.0) else whole
  else x

/-- The least whole double that is not below `x`. -/
def ceil (x : Float) : Float :=
  if x.abs < wholeFrom then
    let whole := wholePart x.abs
    if whole == x.abs then x
    else if x < 0.0 then -whole else whole + 1.0
  else x

/-- The whole double nearest to `x`, where a half goes away from zero. -/
def round (x : Float) : Float :=
  if x.abs < wholeFrom then
    let whole := wholePart x.abs
    if whole == x.abs then x
    else
      let rounded := if 0.5 ≤ x.abs - whole then whole + 1.0 else whole
      if x < 0.0 then -rounded else rounded
  else x

end FlightPlan.Binary64
