import FlightPlan.Heading
import FlightPlan.Proofs.Binary64.Range

/-!
# `FlightPlan.Proofs.Heading`: headings are finite

Whatever an angle is, a heading is a finite number (`isFinite_normalize`, `isFinite_toward`). An
angle that is not finite counts as north. Of a finite one the remainder is taken, a count of
units that is below one of two significands, which leaves no room for an overflow
(`Binary64.bounded_remainder`).
-/

set_option autoImplicit false

namespace FlightPlan

namespace Binary64

/-- A power of two that is not above one. -/
theorem bounded_twoPow {exponent : Int} (hleast : -1074 ≤ exponent) (hgreatest : exponent ≤ 0) :
    Bounded (-52) (twoPow exponent) := by
  have hword {n : Nat} (hn : n < 2048) : n.toUInt64.toNat = n :=
    UInt64.toNat_ofNat_of_lt (Nat.lt_trans hn (by decide))
  unfold twoPow
  -- A power that is subnormal is one bit of the mantissa. Any other has an exponent field alone.
  split
  · refine bounded_ofBits ?_
    have hsmall : (exponent + 1074).toNat < 52 := by omega
    have hpow : Nat.pow 2 (exponent + 1074).toNat ≤ Nat.pow 2 52 :=
      Nat.pow_le_pow_right (by decide) (by omega)
    rw [UInt64.toNat_shiftLeft, hword (by omega),
      Nat.mod_eq_of_lt (a := (exponent + 1074).toNat) (by omega), Nat.shiftLeft_eq]
    refine Nat.lt_of_le_of_lt (Nat.mod_le _ _) ?_
    show 1 * Nat.pow 2 (exponent + 1074).toNat < 1024 * Nat.pow 2 52
    have hpositive : 0 < Nat.pow 2 52 := by decide
    omega
  · refine bounded_ofBits ?_
    rw [UInt64.toNat_shiftLeft, hword (by omega), Nat.shiftLeft_eq]
    refine Nat.lt_of_le_of_lt (Nat.mod_le _ _) ?_
    show (exponent + 1023).toNat * Nat.pow 2 52 < 1024 * Nat.pow 2 52
    exact Nat.mul_lt_mul_of_pos_right (by omega) (by decide)

/-- A magnitude in units that are not above one. -/
theorem bounded_ofParts {p : Parts} (hsignificand : p.significand < UInt64.size)
    (hleast : -1074 ≤ p.exponent) (hgreatest : p.exponent ≤ 0) : Bounded 16 (ofParts p) :=
  (bounded_ofNat hsignificand).mul (bounded_twoPow hleast hgreatest) (by decide) (by decide)
    (by decide)

/-- The significand of a double has at most 53 bits. -/
theorem significand_parts_lt (x : Float) : (parts x).significand < Nat.pow 2 53 := by
  have hfraction : x.toBits.toNat % Nat.pow 2 52 < Nat.pow 2 52 := Nat.mod_lt _ (by decide)
  have hdouble : Nat.pow 2 53 = 2 * Nat.pow 2 52 := rfl
  simp only [parts]
  split
  · show x.toBits.toNat % Nat.pow 2 52 < Nat.pow 2 53
    omega
  · show Nat.pow 2 52 + x.toBits.toNat % Nat.pow 2 52 < Nat.pow 2 53
    omega

/-- No exponent is below the least. -/
theorem le_exponent_parts (x : Float) : -1074 ≤ (parts x).exponent := by
  simp only [parts]
  split
  · exact Int.le_refl _
  · show -1074 ≤ ((x.toBits.toNat / Nat.pow 2 52 % Nat.pow 2 11 : Nat) : Int) - 1075
    omega

/-- A magnitude without the whole multiples of another, both counted in units of the lower
place. -/
def Parts.rest (a b : Parts) : Parts where
  significand := a.significand * Nat.pow 2 (a.exponent - min a.exponent b.exponent).toNat
    % (b.significand * Nat.pow 2 (b.exponent - min a.exponent b.exponent).toNat)
  exponent := min a.exponent b.exponent

/-- Between finite doubles a remainder is what is left of the magnitude, with the sign of the
dividend. -/
theorem remainder_of_finite {x divisor : Float} (hx : x.isFinite = true)
    (hdivisor : divisor.isFinite = true) (hzero : ¬ (divisor == 0.0) = true) :
    remainder x divisor
      = if isNegative x then -ofParts ((parts x).rest (parts divisor))
        else ofParts ((parts x).rest (parts divisor)) := by
  have hspecial : ¬ (¬ x.isFinite = true ∨ divisor.isNaN = true ∨ (divisor == 0.0) = true) := by
    rintro (h | h | h)
    · exact h hx
    · rw [isNaN_of_isFinite hdivisor] at h
      exact nomatch h
    · exact hzero h
  rw [remainder, if_neg hspecial, if_neg (not_not_intro hdivisor)]
  rfl

/-- In units of the lower place one of the two counts is its significand. If that is the count of
the dividend, the remainder is not greater, and if it is that of the divisor, the remainder is
less. -/
theorem significand_rest_lt {a b : Parts} (ha : a.significand < Nat.pow 2 53)
    (hb : b.significand < Nat.pow 2 53) (hpositive : 0 < b.significand) :
    (a.rest b).significand < Nat.pow 2 53 := by
  simp only [Parts.rest]
  rcases Int.le_total a.exponent b.exponent with hle | hge
  · have hunit : (a.exponent - min a.exponent b.exponent).toNat = 0 := by omega
    have hone : Nat.pow 2 0 = 1 := rfl
    rw [hunit, hone, Nat.mul_one]
    exact Nat.lt_of_le_of_lt (Nat.mod_le _ _) ha
  · have hunit : (b.exponent - min a.exponent b.exponent).toNat = 0 := by omega
    have hone : Nat.pow 2 0 = 1 := rfl
    rw [hunit, hone, Nat.mul_one]
    exact Nat.lt_trans (Nat.mod_lt _ hpositive) hb

/-- So a remainder does not overflow. -/
theorem bounded_remainder {x divisor : Float} (hx : x.isFinite = true)
    (hdivisor : divisor.isFinite = true) (hzero : ¬ (divisor == 0.0) = true)
    (hpositive : 0 < (parts divisor).significand) (hplace : (parts divisor).exponent ≤ 0) :
    Bounded 16 (remainder x divisor) := by
  have hcount := significand_rest_lt (significand_parts_lt x) (significand_parts_lt divisor)
    hpositive
  have hleastA := le_exponent_parts x
  have hleastB := le_exponent_parts divisor
  have hmagnitude : Bounded 16 (ofParts ((parts x).rest (parts divisor))) :=
    bounded_ofParts (Nat.lt_trans hcount (by decide)) (by show _ ≤ min _ _; omega)
      (by show min _ _ ≤ _; omega)
  rw [remainder_of_finite hx hdivisor hzero]
  split
  · exact hmagnitude.neg (by decide) (by decide)
  · exact hmagnitude

end Binary64

open Binary64

namespace Heading

/-- Any angle is a finite heading. -/
theorem isFinite_normalize (degrees : Float) : (normalize degrees).isFinite = true := by
  simp only [normalize]
  split
  · decide
  rename_i hfinite
  have hdegrees : Scalar.isFinite degrees = true := by simpa using hfinite
  have hremainder : Bounded 16 (remainder degrees 360.0) :=
    bounded_remainder hdegrees (by decide) (by decide) (by decide +kernel) (by decide +kernel)
  have hturn : Bounded 16 (360.0 : Float) := by decide
  have hturned : Bounded 18 (Scalar.emod degrees 360.0) := by
    simp only [Scalar.emod]
    split
    · exact Bounded.add hremainder hturn (by decide) (by decide) (by decide)
    · exact hremainder.mono (by decide)
  split
  · decide
  · exact hturned.isFinite (by decide)

/-- The heading from one position to another is finite, whatever the bearing is. -/
theorem isFinite_toward [Geodesy Float] (a b : Position Float) : (toward a b).isFinite = true := by
  simp only [toward]
  split
  · decide
  · exact isFinite_normalize _

end Heading

/-- So is the heading at a waypoint. -/
theorem HeadingMode.isFinite_effective (mode : HeadingMode Float) {course : Float}
    (hcourse : course.isFinite = true) : (mode.effective course).isFinite = true := by
  cases mode with
  | auto => exact hcourse
  | manual degrees => exact Heading.isFinite_normalize degrees

end FlightPlan
