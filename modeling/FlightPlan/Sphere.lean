import FlightPlan.Position

/-!
# `FlightPlan.Sphere`: distances and bearings on a spherical Earth

A plan asks three things of the Earth: how long a leg is, in which direction one
position lies from another, and where one gets by going a distance in a
direction. `Geodesy` names the three, so that the theory of plans need not know
how they are computed. Here they are computed on a sphere: the horizontal
distance by the haversine formula, and climb and descent at right angles to it.
-/

set_option autoImplicit false

namespace FlightPlan

/-- What a plan asks of the Earth. Angles are in radians, lengths in meters, and
a bearing of zero points north. -/
class Geodesy (α : Type) where
  /-- The length of the straight leg between two positions at two altitudes. -/
  legDistance : Position α → α → Position α → α → α
  /-- The bearing at which the second position leaves the first. -/
  bearing : Position α → Position α → α
  /-- The position at a distance and bearing from another. -/
  offset : Position α → α → α → Position α

namespace Sphere

variable {α : Type} [Scalar α] [Elementary α]

open Elementary (sqrt sin cos asin atan2)

/-- The mean radius of the Earth in meters. -/
def radius : α := 6371000.0

/-- Half a turn in radians. -/
def pi : α := 3.141592653589793

/-- Degrees to radians. -/
def toRadians (degrees : α) : α :=
  degrees * (pi / 180.0)

/-- Radians to degrees. -/
def toDegrees (radians : α) : α :=
  radians * (180.0 / pi)

/-- A number times itself. -/
def square (x : α) : α :=
  x * x

/-- The horizontal distance between two positions along the surface. -/
def surfaceDistance (a b : Position α) : α :=
  let lat₁ := toRadians a.lat
  let lat₂ := toRadians b.lat
  let dLat := toRadians (b.lat - a.lat)
  let dLon := toRadians (b.lon - a.lon)
  let haversine := square (sin (dLat / 2.0))
    + cos lat₁ * cos lat₂ * square (sin (dLon / 2.0))
  2.0 * radius * atan2 (sqrt haversine) (sqrt (1.0 - haversine))

/-- The length of a leg, from its horizontal and vertical parts. -/
def legDistance (a : Position α) (altA : α) (b : Position α) (altB : α) : α :=
  sqrt (square (surfaceDistance a b) + square (altB - altA))

/-- The initial bearing of the great circle from `a` to `b`. -/
def bearing (a b : Position α) : α :=
  let lat₁ := toRadians a.lat
  let lat₂ := toRadians b.lat
  let dLon := toRadians (b.lon - a.lon)
  atan2 (sin dLon * cos lat₂) (cos lat₁ * sin lat₂ - sin lat₁ * cos lat₂ * cos dLon)

/-- Distances up to this one leave a position where it is. -/
def leastOffset : α := 2.220446049250313e-16

/-- The position at a distance and initial bearing along a great circle. The
longitude is brought back between the two sides of the date line. -/
def offset (p : Position α) (distance bearing : α) : Position α :=
  if -leastOffset ≤ distance ∧ distance ≤ leastOffset then p
  else
    let lat₁ := toRadians p.lat
    let lon₁ := toRadians p.lon
    let arc := distance / radius
    let sinLat₂ := sin lat₁ * cos arc + cos lat₁ * sin arc * cos bearing
    let lat₂ := asin (Scalar.clamp (-1.0) 1.0 sinLat₂)
    let y := sin bearing * sin arc * cos lat₁
    let x := cos arc - sin lat₁ * sinLat₂
    let lon₂ := Scalar.emod (lon₁ + atan2 y x + pi) (2.0 * pi) - pi
    ⟨toDegrees lat₂, toDegrees lon₂⟩

/-- The Earth as a sphere. -/
instance : Geodesy α where
  legDistance := legDistance
  bearing := bearing
  offset := offset

end Sphere

end FlightPlan
