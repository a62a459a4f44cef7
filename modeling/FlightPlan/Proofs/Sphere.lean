import FlightPlan.Proofs.Binary64.Sign
import FlightPlan.Proofs.Legs.Refresh
import FlightPlan.Proofs.Speed

/-!
# `FlightPlan.Proofs.Sphere`: distances are symmetric and vanish on the spot

A leg is as long there as it is back, bit for bit. The differences of the coordinates change their
signs and nothing else (`Binary64.sub_swap`), the sine passes the sign on, and a square loses it
(`Sphere.square_sin_half_swap`). The two cosines only trade places.

From a finite position to itself there is no way to go (`Sphere.surfaceDistance_eq_zero`). So the
length of a vertical leg is a matter of the climb alone, up or down.

The theorems hold for all elementary functions that do what is documented of them
(`Elementary.Regular`). That the cosine is finite would not be enough: the product of two finite
numbers can be infinite, and then it does not vanish when it is multiplied by zero. Its range is
needed.
-/

set_option autoImplicit false

namespace FlightPlan

open Binary64
open Elementary (sqrt sin cos atan2)

/-- What is documented of elementary functions: the root of a double is the nearest one, the sine
is odd and zero at zero, the cosine lies between the negative of one and one, and the point one on
the abscissa lies in the direction zero. -/
structure Elementary.Regular [Elementary Float] : Prop where
  sqrt_eq (x : Float) : sqrt x = Float.sqrt x
  sin_neg (x : Float) : sin (-x) = -sin x
  sin_zero : sin (0.0 : Float) = 0.0
  cos_range (x : Float) : x.isFinite = true → -1.0 ≤ cos x ∧ cos x ≤ 1.0
  atan2_zero_one : atan2 (0.0 : Float) 1.0 = 0.0

namespace Binary64

open Float.Model (UnpackedFloat)
open Float.Model.UnpackedFloat (Sign)

variable {a b x : Float}

/-- The difference of two numbers that compare equal is a zero. -/
theorem sub_eq_zero_or (ha : a.isFinite = true) (hb : b.isFinite = true)
    (h : value a = value b) : a - b = 0.0 ∨ a - b = -0.0 := by
  have hrounded := isRounded_sub ha hb (by rw [h, sub_self])
  rw [h, sub_self] at hrounded
  obtain ⟨hfinite, hzero⟩ : (a - b).isFinite = true ∧ value (a - b) = 0 := by
    have hexact : IsRounded (((0 : ℕ) : ℚ) * 2 ^ (0 : ℤ)) (a - b) := by simpa using hrounded
    simpa using hexact.of_exact (by decide) (by decide) (by simp)
  rcases zero_or_positive hfinite hzero.ge with ⟨s, hu⟩ | ⟨m, e, hm, hu⟩
  · cases s with
    | positive => exact .inl (eq_of_unpack hu)
    | negative => exact .inr (eq_of_unpack hu)
  · exact absurd (value_of_positive hu ▸ hzero) (mul_twoPow_pos hm e).ne'

/-- A finite factor does not bring zero back, and adding takes away the sign that is left. -/
theorem zero_add_mul_zero (hx : x.isFinite = true) : 0.0 + x * 0.0 = (0.0 : Float) := by
  have hzero : ∃ s : Sign, x * 0.0 = Float.ofModel (.pack (.zero s)) := by
    have hproduct : x * 0.0 = Float.ofModel
        (.pack (UnpackedFloat.mul .binary64 x.toModel.unpack (.zero .positive))) := rfl
    rw [hproduct]
    rcases (isFinite_iff_bounded.mp hx).zero_or_finite with ⟨s, hu⟩ | ⟨s, m, e, hm, hu, -⟩
    · exact ⟨s * .positive, by rw [hu]; rfl⟩
    · exact ⟨s * .positive, by rw [hu]; rfl⟩
  obtain ⟨s, hs⟩ := hzero
  rw [hs]
  cases s <;> decide +kernel

end Binary64

namespace Sphere

/-- The sign is lost in the square. -/
theorem square_neg (x : Float) : square (-x) = square x :=
  neg_mul_neg_self x

/-- The square of the absolute value is that of the number. -/
theorem square_abs (x : Float) : square x.abs = square x :=
  abs_mul_abs_self x

/-- A difference has the same square the other way round. -/
theorem square_sub_swap (x y : Float) : square (x - y) = square (y - x) := by
  rcases sub_swap x y with h | h
  · rw [h]
  · rw [h, square_neg]

/-- The sign of an angle goes through the conversion. -/
theorem toRadians_neg (x : Float) : toRadians (-x) = -toRadians x :=
  Binary64.neg_mul _ _

/-- A finite angle is finite in radians. -/
theorem isFinite_toRadians {x : Float} (hx : x.isFinite = true) :
    (toRadians x).isFinite = true := by
  have hdegree : Bounded (-54) ((pi : Float) / 180.0) := by decide +kernel
  have hradians : Bounded 971 (toRadians x) :=
    (isFinite_iff_bounded.mp hx).mul hdegree (by decide) (by decide) (by decide)
  exact hradians.isFinite le_rfl

section
variable [Elementary Float] (h : Elementary.Regular) {a b : Position Float}
include h

/-- The part of the haversine that a difference of two angles makes up, one way or the other. -/
theorem square_sin_half_neg (x : Float) :
    square (sin (toRadians (-x) / 2.0)) = square (sin (toRadians x / 2.0)) := by
  rw [toRadians_neg, Binary64.neg_div, h.sin_neg, square_neg]

/-- The haversine of a difference of angles is the same the other way round. -/
theorem square_sin_half_swap (x y : Float) :
    square (sin (toRadians (x - y) / 2.0)) = square (sin (toRadians (y - x) / 2.0)) := by
  rcases sub_swap x y with hsub | hsub
  · rw [hsub]
  · rw [hsub, square_sin_half_neg h]

/-- The distance along the surface is the same there and back, in every bit. -/
theorem surfaceDistance_comm (a b : Position Float) :
    surfaceDistance a b = surfaceDistance b a := by
  simp only [surfaceDistance]
  rw [square_sin_half_swap h b.lat a.lat, square_sin_half_swap h b.lon a.lon,
    Binary64.mul_comm (cos (toRadians b.lat))]

/-- The length of a leg is the same there and back, in every bit. -/
theorem legDistance_comm (a : Position Float) (altA : Float) (b : Position Float) (altB : Float) :
    legDistance a altA b altB = legDistance b altB a altA := by
  rw [legDistance, legDistance, surfaceDistance_comm h a b, square_sub_swap altB altA]

/-- A difference that is zero makes no part of the haversine. -/
theorem square_sin_half_eq_zero {x y : Float} (hx : x.isFinite = true) (hy : y.isFinite = true)
    (hvalue : value x = value y) : square (sin (toRadians (x - y) / 2.0)) = 0.0 := by
  have hzero : square (sin (toRadians (0.0 : Float) / 2.0)) = 0.0 := by
    have hhalf : toRadians (0.0 : Float) / 2.0 = 0.0 := by decide +kernel
    rw [hhalf, h.sin_zero]
    decide +kernel
  rcases sub_eq_zero_or hx hy hvalue with hsub | hsub
  · rw [hsub, hzero]
  · rw [hsub, square_sin_half_neg h, hzero]

/-- Cosines are between minus one and one, so their product is finite. -/
theorem isFinite_cos_mul_cos {x y : Float} (hx : x.isFinite = true) (hy : y.isFinite = true) :
    (cos (toRadians x) * cos (toRadians y)).isFinite = true := by
  have hbounded {z : Float} (hz : z.isFinite = true) : Bounded (-52) (cos (toRadians z)) := by
    obtain ⟨hlow, hhigh⟩ := h.cos_range _ (isFinite_toRadians hz)
    exact bounded_of_between (by decide) (by decide) hlow hhigh
  have hproduct : Bounded 971 (cos (toRadians x) * cos (toRadians y)) :=
    (hbounded hx).mul (hbounded hy) (by decide) (by decide) (by decide)
  exact hproduct.isFinite le_rfl

/-- There is no way to go between finite positions that compare equal. -/
theorem surfaceDistance_eq_zero (ha : a.isFinite = true) (hb : b.isFinite = true)
    (hlat : value a.lat = value b.lat) (hlon : value a.lon = value b.lon) :
    surfaceDistance a b = 0.0 := by
  obtain ⟨halat, halon⟩ : a.lat.isFinite = true ∧ a.lon.isFinite = true :=
    (Bool.and_eq_true ..).mp ha
  obtain ⟨hblat, hblon⟩ : b.lat.isFinite = true ∧ b.lon.isFinite = true :=
    (Bool.and_eq_true ..).mp hb
  simp only [surfaceDistance]
  rw [square_sin_half_eq_zero h hblat halat hlat.symm, square_sin_half_eq_zero h hblon halon
    hlon.symm, zero_add_mul_zero (isFinite_cos_mul_cos h halat hblat), h.sqrt_eq, h.sqrt_eq]
  have hzero : Float.sqrt 0.0 = 0.0 := by decide +kernel
  have hone : Float.sqrt (1.0 - 0.0) = 1.0 := by decide +kernel
  rw [hzero, hone, h.atan2_zero_one]
  decide +kernel

end

end Sphere

namespace Speed

/-- The leg goes straight up or down, or nowhere: its two ends have finite positions that compare
equal, where zeros of either sign do. -/
structure IsVertical (origin goal : Target Float) : Prop where
  origin_finite : origin.position.isFinite = true
  goal_finite : goal.position.isFinite = true
  same : (origin.position == goal.position) = true

/-- On a vertical leg nothing is flown along the surface. -/
theorem IsVertical.surfaceDistance_eq_zero [Elementary Float] (h : Elementary.Regular)
    {origin goal : Target Float} (hleg : IsVertical origin goal) :
    Sphere.surfaceDistance origin.position goal.position = 0.0 := by
  obtain ⟨horigin, hgoal, hsame⟩ := hleg
  obtain ⟨hlat, hlon⟩ : (origin.position.lat == goal.position.lat) = true
      ∧ (origin.position.lon == goal.position.lon) = true := (Bool.and_eq_true ..).mp hsame
  exact Sphere.surfaceDistance_eq_zero h horigin hgoal (value_eq_of_beq hlat)
    (value_eq_of_beq hlon)

/-- The length of a vertical leg is the root of its squared climb, which may be a descent. -/
theorem IsVertical.length_eq [Elementary Float] (h : Elementary.Regular)
    {origin goal : Target Float} (hleg : IsVertical origin goal) :
    length origin goal
      = Float.sqrt (0.0 + Sphere.square (goal.altitude - origin.altitude).abs) := by
  have hzero : Sphere.square (0.0 : Float) = 0.0 := by decide +kernel
  show Sphere.legDistance origin.position origin.altitude goal.position goal.altitude = _
  rw [Sphere.legDistance, hleg.surfaceDistance_eq_zero h, h.sqrt_eq, hzero, Sphere.square_abs]

end Speed

/-- Distances are the same doubles there and back: over the surface between all positions, and in
space between all targets, whatever their coordinates and altitudes are. From a finite position to
itself, or to one that compares equal, the distance is zero. Of two legs at finite positions that
go straight up or down, the lengths are equal when the climbs have the same magnitude. -/
theorem distances_are_symmetric [Elementary Float] (h : Elementary.Regular) :
    (∀ a b : Position Float, Sphere.surfaceDistance a b = Sphere.surfaceDistance b a) ∧
    (∀ origin goal : Target Float, Speed.length origin goal = Speed.length goal origin) ∧
    (∀ a : Position Float, a.isFinite = true → Sphere.surfaceDistance a a = 0.0) ∧
    (∀ origin goal : Target Float, Speed.IsVertical origin goal →
      Sphere.surfaceDistance origin.position goal.position = 0.0) ∧
    ∀ origin goal origin' goal' : Target Float, Speed.IsVertical origin goal →
      Speed.IsVertical origin' goal' →
      (goal.altitude - origin.altitude).abs = (goal'.altitude - origin'.altitude).abs →
      Speed.length origin goal = Speed.length origin' goal' := by
  refine ⟨Sphere.surfaceDistance_comm h, ?_, ?_, ?_, ?_⟩
  · intro origin goal
    exact Sphere.legDistance_comm h _ _ _ _
  · intro a ha
    exact Sphere.surfaceDistance_eq_zero h ha ha rfl rfl
  · intro origin goal hleg
    exact hleg.surfaceDistance_eq_zero h
  · intro origin goal origin' goal' hleg hleg' hclimb
    rw [hleg.length_eq h, hleg'.length_eq h, hclimb]

/-- The elementary functions as they are at angles of a billionth of a turn and less, where the
sine of a double is nearest to the double itself and the cosine is nearest to one. -/
@[reducible]
def Elementary.atSmallAngles : Elementary Float where
  sqrt := Float.sqrt
  sin x := x
  cos _ := 1.0
  asin x := x
  atan2 y _ := y

/-- Between two places some centimeters apart it is as far there as it is back, and not nothing. A
climb of ten meters at the one is as long as a descent of ten meters at the other, and the sign of
a zero latitude does not matter. -/
theorem distances_are_symmetric_nearby :
    letI : Elementary Float := .atSmallAngles
    let ground := (Legs.waypointOf 1 0.0 1e-7 100.0 0.0).target
    let above := (Legs.waypointOf 2 (-0.0) 1e-7 110.0 10.0).target
    let aside := (Legs.waypointOf 3 2e-7 (-3e-7) 110.0 20.0).target
    let below := (Legs.waypointOf 4 2e-7 (-3e-7) 100.0 30.0).target
    Elementary.Regular
      ∧ Sphere.surfaceDistance ground.position aside.position
          = Sphere.surfaceDistance aside.position ground.position
      ∧ (0.0 : Float) < Sphere.surfaceDistance ground.position aside.position
      ∧ Speed.length ground aside = Speed.length aside ground
      ∧ ground.position.isFinite = true
      ∧ Sphere.surfaceDistance ground.position ground.position = 0.0
      ∧ Speed.IsVertical ground above ∧ Speed.IsVertical aside below
      ∧ (above.altitude - ground.altitude).abs = (below.altitude - aside.altitude).abs
      ∧ Speed.length ground above = Speed.length aside below := by
  let _ : Elementary Float := .atSmallAngles
  have hone : (-1.0 : Float) ≤ 1.0 ∧ (1.0 : Float) ≤ 1.0 := by decide
  have hregular : Elementary.Regular := ⟨fun _ => rfl, fun _ => rfl, rfl, fun _ _ => hone, rfl⟩
  obtain ⟨hsurface, hlength, hself, -, hvertical⟩ := distances_are_symmetric hregular
  have hup : Speed.IsVertical (Legs.waypointOf 1 0.0 1e-7 100.0 0.0).target
      (Legs.waypointOf 2 (-0.0) 1e-7 110.0 10.0).target :=
    ⟨by decide +kernel, by decide +kernel, by decide +kernel⟩
  have hdown : Speed.IsVertical (Legs.waypointOf 3 2e-7 (-3e-7) 110.0 20.0).target
      (Legs.waypointOf 4 2e-7 (-3e-7) 100.0 30.0).target :=
    ⟨by decide +kernel, by decide +kernel, by decide +kernel⟩
  have hclimb : ((110.0 : Float) - 100.0).abs = ((100.0 : Float) - 110.0).abs := by decide +kernel
  exact ⟨hregular, hsurface _ _, by decide +kernel, hlength _ _, hup.origin_finite,
    hself _ hup.origin_finite, hup, hdown, hclimb, hvertical _ _ _ _ hup hdown hclimb⟩

end FlightPlan
