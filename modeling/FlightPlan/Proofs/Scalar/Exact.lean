import FlightPlan.Proofs.Scalar.Comparison
import Mathlib

/-!
# `FlightPlan.Proofs.Scalar.Exact`: plans measured in rational numbers

The theory of plans is written for any numbers, and in rational numbers its formulas mean what they
say: no result is rounded, none is too large, and all of them are numbers. So a law that holds only
but for rounding, such as that a mean of elevations lies between them, is stated here.

An index still has to fit its storage, and so the greatest index stands for all numbers beyond it.
-/

set_option autoImplicit false

namespace FlightPlan

/-- Rational numbers, of which each is finite. -/
instance : Scalar ℚ where
  decLT := inferInstance
  decLE := inferInstance
  isNaN _ := false
  isFinite _ := true
  floor x := ⌊x⌋
  ceil x := ⌈x⌉
  round x := if x < 0 then -⌊-x + 1 / 2⌋ else ⌊x + 1 / 2⌋
  rem x divisor := x - (if x / divisor < 0 then ⌈x / divisor⌉ else ⌊x / divisor⌋) * divisor
  ofNat n := n
  toIndex x := min ⌊x⌋₊ (UInt64.size - 1)

/-- Rational numbers compare as they should, since all of them are numbers. -/
instance : LawfulComparison ℚ where
  numbers_of_le _ := ⟨rfl, rfl⟩
  le_total _ _ := le_total _ _
  le_trans hab hbc := hab.trans hbc
  lt_iff := lt_iff_le_not_ge
  isNaN_of_isFinite _ := rfl
  isNaN_zero := rfl

namespace Scalar

/-- The zero that the theory writes as a decimal. -/
theorem decimal_zero : (OfScientific.ofScientific 0 true 1 : ℚ) = 0 := by
  norm_num

/-- Ten, as the theory writes it. -/
theorem decimal_ten : (OfScientific.ofScientific 100 true 1 : ℚ) = 10 := by
  norm_num

/-- Cutting off what is behind the point gives an index, if there are enough of them. -/
theorem toIndex_floor {x : ℚ} (h : ⌊x⌋₊ < UInt64.size) :
    toIndex (floor x) = ⌊x⌋₊ := by
  show min ⌊((⌊x⌋ : ℤ) : ℚ)⌋₊ (UInt64.size - 1) = ⌊x⌋₊
  rw [← Int.floor_toNat, Int.floor_intCast, Int.floor_toNat]
  omega

/-- A number between two bounds stays where it is. -/
theorem clamp_eq_self {low high x : ℚ} (hlow : low ≤ x) (hhigh : x ≤ high) :
    clamp low high x = x := by
  unfold clamp
  rw [if_neg (not_lt.mpr hlow), if_neg (not_lt.mpr hhigh)]

/-- Of numbers that all compare, the greater one is chosen. -/
theorem fmax_eq_max (x y : ℚ) : fmax x y = max x y := by
  have hnumber (z : ℚ) : isNaN z = false := rfl
  unfold fmax
  rw [hnumber, hnumber]
  by_cases h : y < x
  · simp [h, h.le]
  · simp [h, not_lt.mp h]

/-- What is not negative is rounded to a whole number by cutting off what is behind the point half
a unit further up. -/
theorem round_of_nonneg {x : ℚ} (h : 0 ≤ x) : round x = ⌊x + 1 / 2⌋ :=
  if_neg (not_lt.mpr h)

/-- The greater of two numbers keeps as many tenths at least. -/
theorem roundTenth_mono {x y : ℚ} (hx : 0 ≤ x) (hxy : x ≤ y) : roundTenth x ≤ roundTenth y := by
  have htenths : x * 10 ≤ y * 10 := by linarith
  have hnonneg : 0 ≤ x * 10 := by linarith
  have hfloor : ⌊x * 10 + 1 / 2⌋ ≤ ⌊y * 10 + 1 / 2⌋ := Int.floor_mono (by linarith)
  simp only [roundTenth, decimal_ten]
  rw [round_of_nonneg hnonneg, round_of_nonneg (hnonneg.trans htenths)]
  exact div_le_div_of_nonneg_right (Int.cast_le.mpr hfloor) (by norm_num)

end Scalar

end FlightPlan
