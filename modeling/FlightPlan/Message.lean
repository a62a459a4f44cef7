import FlightPlan.Decimal.Layout

/-!
# `FlightPlan.Message`: numbers in messages

Messages for people write a double positionally however long that gets, with no
mark on whole numbers, and name the values that have no digits. Speeds and
heights in the messages of a report are cut to one decimal.
-/

set_option autoImplicit false

namespace FlightPlan.Message

/-- Always positional, no mark on a whole number, and a tie goes up. -/
def layout : Decimal.Layout where
  positional _ := true
  wholeMark := []
  tie := .up

/-- The text of a double that `finite` writes when it has digits. -/
def withNames (finite : Float → List Char) (x : Float) : String :=
  if x.isNaN then "NaN"
  else if x.isFinite then String.ofList (finite x)
  else if x < 0.0 then "-inf" else "inf"

/-- A number with the fewest digits that read back. -/
def number (x : Float) : String :=
  withNames (Decimal.floatText layout) x

/-- A number cut to one decimal. -/
def tenths (x : Float) : String :=
  withNames Decimal.fixedTenths x

end FlightPlan.Message
