import FlightPlan.Sphere

/-!
# `FlightPlan.Heading`: where a drone points

A heading is an angle in degrees from north, turning east, at least `0` and
below `360`. Any angle is brought into that range by `Heading.normalize`; an
angle that is not finite counts as north. `Heading.toward` is the heading from
one position to another, to one decimal, and `Heading.text` the three digits
that pilots read.

`HeadingMode` says whether a waypoint points along its leg or where its operator
wants it.
-/

set_option autoImplicit false

namespace FlightPlan

/-- How the heading at a waypoint is chosen. -/
inductive HeadingMode (α : Type) where
  /-- Along the leg. -/
  | auto
  /-- At the given angle in degrees. -/
  | manual (degrees : α)
deriving BEq

namespace Heading

variable {α : Type} [Scalar α]

/-- The heading where none can be computed. -/
def north : α := 0.0

/-- Any angle in degrees as a heading. The remainder of a tiny negative angle
can round up to a whole turn, which is north again. -/
def normalize (degrees : α) : α :=
  if !Scalar.isFinite degrees then north
  else
    let turned := Scalar.emod degrees 360.0
    if 360.0 ≤ turned then 0.0 else turned

/-- The heading from one position to another. Rounding to one decimal can reach
a whole turn, so the rounded angle is normalized once more. -/
def toward [Geodesy α] (a b : Position α) : α :=
  let degrees := Sphere.toDegrees (Geodesy.bearing a b)
  if !Scalar.isFinite degrees then north
  else normalize (Scalar.roundTenth (normalize degrees))

/-- A number below `1000` in three digits. -/
def threeDigits (n : Nat) : List Char :=
  [Nat.digitChar (n / 100), Nat.digitChar (n / 10 % 10), Nat.digitChar (n % 10)]

/-- An angle as three digits of whole degrees and a degree sign. -/
def text (degrees : α) : String :=
  let whole := Scalar.toIndex (Scalar.round (normalize degrees)) % 360
  String.ofList (threeDigits whole ++ ['°'])

end Heading

namespace HeadingMode

variable {α : Type} [Scalar α]

/-- The drone points along its leg. -/
def isAuto : HeadingMode α → Bool
  | .auto => true
  | .manual _ => false

/-- The heading at a waypoint whose leg has the given course. -/
def effective (mode : HeadingMode α) (course : α) : α :=
  match mode with
  | .auto => course
  | .manual degrees => Heading.normalize degrees

end HeadingMode

end FlightPlan
