import FlightPlan.Decimal.Basic
import FlightPlan.Proofs.Binary64.Scientific

/-!
# `FlightPlan.Proofs.Decimal.Nearest`: the double of a decimal is the nearest one

`Decimal.magnitude` is the exact number that a decimal stands for, without its sign. The double of
the decimal is what this number is rounded to (`represents_nearestMagnitude`). A great exponent or
a small one is told from the place of the first digit, and what is told is right: a number with a
digit at place 311 is beyond the range of doubles, and one with no digit at place -330 or above is
less than half the least double.
-/

set_option autoImplicit false

namespace FlightPlan.Decimal

open Binary64

variable {d : Decimal} {n : ℕ}

/-- The exact number, without its sign. -/
def magnitude (d : Decimal) : ℚ :=
  d.coefficient * 10 ^ d.exponent

/-- A power of ten is positive, whatever sign its exponent has. -/
theorem tenPow_pos (k : ℤ) : (0 : ℚ) < 10 ^ k :=
  zpow_pos (by norm_num) k

/-- Powers of ten grow with their exponents. -/
theorem tenPow_le_tenPow {k l : ℤ} (h : k ≤ l) : (10 : ℚ) ^ k ≤ 10 ^ l :=
  zpow_le_zpow_right₀ (by norm_num) h

/-- Going up by `j` places multiplies by a whole power of ten. -/
theorem tenPow_add_natCast (k : ℤ) (j : ℕ) : (10 : ℚ) ^ (k + j) = 10 ^ j * 10 ^ k := by
  rw [zpow_add₀ (by norm_num), zpow_natCast, mul_comm]

/-! ### The first digit -/

/-- Every number has a digit, zero too. -/
theorem digitCount_pos (n : ℕ) : 0 < digitCount n :=
  Nat.length_toDigits_pos

/-- A number is below the power of ten with one digit more. -/
theorem lt_tenPow_digitCount (n : ℕ) : n < 10 ^ digitCount n :=
  (Nat.length_toDigits_le_iff (by decide) (digitCount_pos n)).mp le_rfl

/-- A number above zero is at least the power of ten with as many digits. -/
theorem tenPow_le_of_pos (hn : 0 < n) : 10 ^ (digitCount n - 1) ≤ n := by
  by_contra hlt
  rcases Nat.eq_zero_or_pos (digitCount n - 1) with hone | hmore
  · rw [hone, pow_zero] at hlt
    exact hlt hn
  · have hshort := (Nat.length_toDigits_le_iff (by decide) hmore).mpr (Nat.lt_of_not_le hlt)
    have hcount : (Nat.toDigits 10 n).length = digitCount n := rfl
    omega

/-- A number has no more decimal digits than binary ones. -/
theorem digitCount_le_log2 (hn : 0 < n) : digitCount n ≤ n.log2 + 1 := by
  have hpow : 2 ^ (digitCount n - 1) ≤ n :=
    (Nat.pow_le_pow_left (by decide) _).trans (tenPow_le_of_pos hn)
  have hlog := (Nat.le_log2 hn.ne').mpr hpow
  omega

/-- The first place of a decimal is not above its magnitude, unless the decimal is zero. -/
theorem tenPow_firstPlace_le (h : 0 < d.coefficient) : 10 ^ d.firstPlace ≤ d.magnitude := by
  have hcount := digitCount_pos d.coefficient
  have hplace : d.firstPlace = d.exponent + (digitCount d.coefficient - 1 : ℕ) := by
    rw [firstPlace]
    omega
  have hdigits : ((10 ^ (digitCount d.coefficient - 1) : ℕ) : ℚ) ≤ d.coefficient :=
    Nat.cast_le.mpr (tenPow_le_of_pos h)
  rw [Nat.cast_pow, Nat.cast_ofNat] at hdigits
  rw [hplace, tenPow_add_natCast, magnitude]
  exact mul_le_mul_of_nonneg_right hdigits (tenPow_pos _).le

/-- A decimal is less than one unit in the place before its first. -/
theorem magnitude_lt (d : Decimal) : d.magnitude < 10 ^ (d.firstPlace + 1) := by
  have hplace : d.firstPlace + 1 = d.exponent + digitCount d.coefficient := by
    rw [firstPlace]
    omega
  have hdigits : (d.coefficient : ℚ) < ((10 ^ digitCount d.coefficient : ℕ) : ℚ) :=
    Nat.cast_lt.mpr (lt_tenPow_digitCount _)
  rw [Nat.cast_pow, Nat.cast_ofNat] at hdigits
  rw [hplace, tenPow_add_natCast, magnitude]
  exact mul_lt_mul_of_pos_right hdigits (tenPow_pos _)

/-! ### The nearest double -/

/-- With an exponent that is not negative the magnitude is a whole number. -/
theorem magnitude_eq_mul (h : 0 ≤ d.exponent) :
    d.magnitude = d.coefficient * 10 ^ d.exponent.natAbs := by
  rw [magnitude, ← zpow_natCast, Int.natAbs_of_nonneg h]

/-- With a negative exponent the magnitude is a fraction over a power of ten. -/
theorem magnitude_eq_div (h : d.exponent < 0) :
    d.magnitude = d.coefficient / 10 ^ d.exponent.natAbs := by
  have hneg : (d.exponent.natAbs : ℤ) = -d.exponent := by omega
  rw [magnitude, ← zpow_natCast, hneg, zpow_neg, div_inv_eq_mul]

/-- Some double is nearest, whatever the exponent is. -/
theorem exists_represents_magnitude (h : 0 < d.coefficient) : ∃ a, Represents d.magnitude a := by
  rcases Int.lt_or_le d.exponent 0 with hneg | hnonneg
  · rw [magnitude_eq_div hneg]
    exact ⟨_, represents_div_tenPow h _ (Nat.pow_pos (by decide))⟩
  · rw [magnitude_eq_mul hnonneg]
    refine ⟨_, represents_mul_tenPow h _ ?_ (Nat.pow_pos (by decide))⟩
    rw [Nat.shiftLeft_eq]
    exact Nat.mul_pos h (Nat.two_pow_pos 53)

/-- A decimal whose first place is beyond all doubles stands for infinity. -/
theorem represents_infinity (hfirst : 310 < d.firstPlace) (h : 0 < d.coefficient) :
    Represents d.magnitude (1.0 / 0.0) := by
  obtain ⟨a, ha⟩ := exists_represents_magnitude h
  have hpow : ((2 ^ 1024 : ℕ) : ℚ) ≤ ((10 ^ 311 : ℕ) : ℚ) := Nat.cast_le.mpr (by decide +kernel)
  rw [Nat.cast_pow, Nat.cast_pow, Nat.cast_ofNat, Nat.cast_ofNat] at hpow
  have hfirst' : (10 : ℚ) ^ (311 : ℕ) ≤ 10 ^ d.firstPlace := by
    rw [← zpow_natCast]
    exact tenPow_le_tenPow hfirst
  rw [← ha.eq_infinity (hpow.trans (hfirst'.trans (tenPow_firstPlace_le h)))]
  exact ha

/-- What is less than half the least double is rounded to zero. -/
theorem roundsTo_zero_of_lt {x : ℚ} (hnonneg : 0 ≤ x) (hx : x < 2 ^ (-1075 : ℤ)) :
    RoundsTo x 0 := by
  have hplace : IsPlace x (-1074) :=
    ⟨le_rfl, hx.trans_le (twoPow_le_twoPow (by decide)), .inl rfl⟩
  have hhalf : x / 2 ^ (-1074 : ℤ) < 1 / 2 := by
    have hleast : (-1074 : ℤ) = -1075 + (1 : ℕ) := by omega
    rw [div_lt_iff₀ (twoPow_pos _), hleast, twoPow_add_natCast]
    linarith
  have hquotient : 0 ≤ x / 2 ^ (-1074 : ℤ) := div_nonneg hnonneg (twoPow_pos _).le
  have hnearest : IsNearest (x / 2 ^ (-1074 : ℤ)) 0 := by
    refine ⟨?_, ?_, fun _ => rfl⟩ <;> rw [Nat.cast_zero] <;> linarith
  have hrounds := RoundsTo.intro hplace hnearest
  rwa [Nat.cast_zero, zero_mul] at hrounds

/-- A decimal whose first place is far below the least double stands for zero. -/
theorem represents_zero_of_firstPlace (hfirst : d.firstPlace < -330) :
    Represents d.magnitude 0.0 := by
  refine represents_of_roundsTo_zero (roundsTo_zero_of_lt ?_ ?_)
  · exact mul_nonneg (Nat.cast_nonneg _) (tenPow_pos _).le
  · have hpow : ((2 ^ 1075 : ℕ) : ℚ) ≤ ((10 ^ 330 : ℕ) : ℚ) := Nat.cast_le.mpr (by decide +kernel)
    rw [Nat.cast_pow, Nat.cast_pow, Nat.cast_ofNat, Nat.cast_ofNat] at hpow
    have hsmall : (10 : ℚ) ^ (-(330 : ℕ) : ℤ) ≤ 2 ^ (-(1075 : ℕ) : ℤ) := by
      rw [zpow_neg, zpow_neg, zpow_natCast, zpow_natCast]
      exact inv_anti₀ (pow_pos two_pos _) hpow
    have hfirst' : (10 : ℚ) ^ (d.firstPlace + 1) ≤ 10 ^ (-(330 : ℕ) : ℤ) :=
      tenPow_le_tenPow (by push_cast; omega)
    exact (magnitude_lt d).trans_le (hfirst'.trans hsmall)

/-- The double of a decimal is the nearest one to its exact number. -/
theorem represents_nearestMagnitude (d : Decimal) : Represents d.magnitude d.nearestMagnitude := by
  rw [nearestMagnitude]
  split
  · rename_i hzero
    rw [magnitude, hzero, Nat.cast_zero, zero_mul]
    exact represents_of_roundsTo_zero roundsTo_zero
  rename_i hcoefficient
  have h : 0 < d.coefficient := Nat.pos_of_ne_zero hcoefficient
  split
  · rename_i hlarge
    exact represents_infinity hlarge h
  split
  · rename_i hsmall
    exact represents_zero_of_firstPlace hsmall
  rename_i hlarge hsmall
  rw [firstPlace] at hlarge hsmall
  have hcount := digitCount_pos d.coefficient
  have hlog := digitCount_le_log2 h
  rcases Int.lt_or_le d.exponent 0 with hneg | hnonneg
  · rw [magnitude_eq_div hneg, decide_eq_true hneg]
    exact represents_ofScientific_div h (by omega) (by omega)
  · rw [magnitude_eq_mul hnonneg, decide_eq_false (Int.not_lt.mpr hnonneg)]
    exact represents_ofScientific_mul h (by omega)

end FlightPlan.Decimal
