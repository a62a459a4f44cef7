import Mathlib

/-!
# `FlightPlan.Proofs.Binary64.Nearest`: the nearest number of 53 digits

Arithmetic of doubles computes an exact number and rounds it. This file is about the second step
alone, for magnitudes, in rational numbers.

A magnitude keeps 53 binary digits, unless it is so small that some of them would stand behind
place `-1074`. `IsPlace x k` says that `k` is the place of the last digit that `x` keeps. In units
of this place `x` is rounded to a whole number, a tie going to the even one (`IsNearest`), and
`RoundsTo x v` says that the result is `v`. There is no greatest number yet: the end of the range
of doubles comes in when `v` is made a double.

* `RoundsTo.mono`: rounding is monotone. At one place this is so for whole numbers. Between two
  places stands a power of two, which the lower number is rounded up to at most, and the upper
  number down to at least.
* `RoundsTo.eq_self`: a number with 53 digits or fewer is not changed.
* `RoundsTo.pos`: what is not below the least positive double is not rounded to zero.
-/

set_option autoImplicit false

namespace FlightPlan.Binary64

variable {x y v w : ℚ} {k l : ℤ} {m n : ℕ}

/-- A power of two is positive, whatever sign its exponent has. -/
theorem twoPow_pos (k : ℤ) : (0 : ℚ) < 2 ^ k :=
  zpow_pos two_pos k

/-- Going up by `j` places multiplies by a whole power of two. -/
theorem twoPow_add_natCast (k : ℤ) (j : ℕ) : (2 : ℚ) ^ (k + j) = 2 ^ j * 2 ^ k := by
  rw [zpow_add₀ two_ne_zero, zpow_natCast, mul_comm]

/-- With a significand above zero a number is positive. -/
theorem mul_twoPow_pos (hm : 0 < m) (k : ℤ) : (0 : ℚ) < m * 2 ^ k :=
  mul_pos (by exact_mod_cast hm) (twoPow_pos k)

/-- Powers of two grow with their exponents. -/
theorem twoPow_le_twoPow (h : k ≤ l) : (2 : ℚ) ^ k ≤ 2 ^ l :=
  zpow_le_zpow_right₀ one_le_two h

/-! ### The place of the last digit -/

/-- The last digit that a magnitude keeps is at place `k`: it has at most 53 digits up to there,
and exactly 53 unless `k` is the least place. -/
structure IsPlace (x : ℚ) (k : ℤ) : Prop where
  least : -1074 ≤ k
  below : x < 2 ^ (k + 53)
  normal : k = -1074 ∨ 2 ^ (k + 52) ≤ x

/-- A greater magnitude does not keep digits of lower places. -/
theorem IsPlace.mono (hx : IsPlace x k) (hy : IsPlace y l) (hxy : x ≤ y) : k ≤ l := by
  by_contra hlt
  have hk : (2 : ℚ) ^ (k + 52) ≤ x := by
    rcases hx.normal with rfl | hnormal
    · exact absurd hy.least hlt
    · exact hnormal
  have hpow : (2 : ℚ) ^ (l + 53) ≤ 2 ^ (k + 52) := twoPow_le_twoPow (by omega)
  exact absurd hxy (not_le.mpr (lt_of_lt_of_le hy.below (hpow.trans hk)))

/-- A number of digits up to place `k` keeps them all, and no more. -/
theorem isPlace_mul_twoPow_iff :
    IsPlace (m * 2 ^ k) k ↔ m < 2 ^ 53 ∧ -1074 ≤ k ∧ (k = -1074 ∨ 2 ^ 52 ≤ m) := by
  have hbelow : (m : ℚ) * 2 ^ k < 2 ^ (k + 53) ↔ m < 2 ^ 53 := by
    rw [← Nat.cast_ofNat (R := ℤ), twoPow_add_natCast, mul_lt_mul_iff_left₀ (twoPow_pos k)]
    exact_mod_cast Iff.rfl
  have hnormal : (2 : ℚ) ^ (k + 52) ≤ m * 2 ^ k ↔ 2 ^ 52 ≤ m := by
    rw [← Nat.cast_ofNat (R := ℤ), twoPow_add_natCast, mul_le_mul_iff_left₀ (twoPow_pos k)]
    exact_mod_cast Iff.rfl
  constructor
  · intro h
    exact ⟨hbelow.mp h.below, h.least, h.normal.imp_right hnormal.mp⟩
  · rintro ⟨hm, hleast, h⟩
    exact ⟨hleast, hbelow.mpr hm, h.imp_right hnormal.mpr⟩

/-! ### The nearest whole number -/

/-- The whole number is nearest to `x`, and even if another is as near. -/
structure IsNearest (x : ℚ) (n : ℕ) : Prop where
  below : (n : ℚ) - 1 / 2 ≤ x
  above : x ≤ (n : ℚ) + 1 / 2
  even : x = n - 1 / 2 ∨ x = n + 1 / 2 → n % 2 = 0

/-- A greater number is rounded to no lesser one. -/
theorem IsNearest.mono (hx : IsNearest x m) (hy : IsNearest y n) (hxy : x ≤ y) : m ≤ n := by
  by_contra hlt
  have hsucc : (n : ℚ) + 1 ≤ m := by exact_mod_cast Nat.lt_of_not_le hlt
  have hbelow := hx.below
  have habove := hy.above
  -- Both numbers are in the middle between `n` and `m`, which would both have to be even.
  have hm : x = m - 1 / 2 := by linarith
  have hn : y = n + 1 / 2 := by linarith
  have hnext : (m : ℚ) = n + 1 := by linarith
  have hmEven := hx.even (.inl hm)
  have hnEven := hy.even (.inr hn)
  have hsuccNat : m = n + 1 := by exact_mod_cast hnext
  omega

/-- A whole number is nearest to itself. -/
theorem isNearest_natCast (n : ℕ) : IsNearest (n : ℚ) n where
  below := by linarith
  above := by linarith
  even h := by
    rcases h with h | h <;> linarith

/-- A whole number is rounded to itself and to no other. -/
theorem IsNearest.eq_natCast (h : IsNearest (m : ℚ) n) : n = m :=
  le_antisymm (h.mono (isNearest_natCast m) le_rfl) ((isNearest_natCast m).mono h le_rfl)

/-! ### Rounding -/

/-- The number of 53 digits that is nearest to `x`, rounded at the place of its last digit. -/
inductive RoundsTo (x : ℚ) : ℚ → Prop
  | intro {k : ℤ} {n : ℕ} (hk : IsPlace x k) (hn : IsNearest (x / 2 ^ k) n) :
    RoundsTo x (n * 2 ^ k)

/-- What a magnitude is rounded to is not negative. -/
theorem RoundsTo.nonneg (h : RoundsTo x v) : 0 ≤ v := by
  obtain ⟨-, -⟩ := h
  positivity

/-- A magnitude is rounded to at most 53 digits, which go up to a power of two. -/
theorem IsPlace.nearest_le (hk : IsPlace x k) (hn : IsNearest (x / 2 ^ k) n) : n ≤ 2 ^ 53 := by
  refine hn.mono (isNearest_natCast (2 ^ 53)) ?_
  rw [div_le_iff₀ (twoPow_pos k), Nat.cast_pow, Nat.cast_ofNat, ← twoPow_add_natCast]
  exact hk.below.le

/-- It is rounded to 53 digits at least, unless it keeps digits of the least place. -/
theorem IsPlace.le_nearest (hk : IsPlace x k) (hn : IsNearest (x / 2 ^ k) n) :
    k = -1074 ∨ 2 ^ 52 ≤ n := by
  refine hk.normal.imp_right fun hnormal => (isNearest_natCast (2 ^ 52)).mono hn ?_
  rw [le_div_iff₀ (twoPow_pos k), Nat.cast_pow, Nat.cast_ofNat, ← twoPow_add_natCast]
  exact hnormal

/-- Rounding is monotone. -/
theorem RoundsTo.mono (hx : RoundsTo x v) (hy : RoundsTo y w) (hxy : x ≤ y) : v ≤ w := by
  obtain @⟨k, m, hk, hm⟩ := hx
  obtain @⟨l, n, hl, hn⟩ := hy
  rcases (hk.mono hl hxy).eq_or_lt with rfl | hlt
  · have hmn : m ≤ n := hm.mono hn (div_le_div_of_nonneg_right hxy (twoPow_pos k).le)
    exact mul_le_mul_of_nonneg_right (by exact_mod_cast hmn) (twoPow_pos k).le
  -- The lower number is rounded up to a power of two at most, and the upper number, whose digits
  -- are of higher places, down to one at least.
  have hmTop : m ≤ 2 ^ 53 := hk.nearest_le hm
  have hnBottom : 2 ^ 52 ≤ n := (hl.le_nearest hn).resolve_left (by linarith [hk.least])
  calc
    (m : ℚ) * 2 ^ k ≤ 2 ^ 53 * 2 ^ k := by
      exact mul_le_mul_of_nonneg_right (by exact_mod_cast hmTop) (twoPow_pos k).le
    _ = 2 ^ (k + 53) := (twoPow_add_natCast k 53).symm
    _ ≤ 2 ^ (l + 52) := twoPow_le_twoPow (by omega)
    _ = 2 ^ 52 * 2 ^ l := twoPow_add_natCast l 52
    _ ≤ n * 2 ^ l := by
      exact mul_le_mul_of_nonneg_right (by exact_mod_cast hnBottom) (twoPow_pos l).le

/-- A number that has 53 digits or fewer is not changed. -/
theorem RoundsTo.eq_self (h : RoundsTo (m * 2 ^ l) v) (hm : m < 2 ^ 53) (hl : -1074 ≤ l) :
    v = m * 2 ^ l := by
  obtain @⟨k, n, hk, hn⟩ := h
  have hkl : k ≤ l := by
    by_contra hlt
    have hnormal := hk.normal.resolve_left (by omega)
    have htop : (m : ℚ) * 2 ^ l < 2 ^ 53 * 2 ^ l :=
      mul_lt_mul_of_pos_right (by exact_mod_cast hm) (twoPow_pos l)
    have hpow : (2 : ℚ) ^ 53 * 2 ^ l ≤ 2 ^ (k + 52) := by
      rw [← twoPow_add_natCast]
      exact twoPow_le_twoPow (by push_cast; omega)
    exact absurd hnormal (not_le.mpr (htop.trans_le hpow))
  obtain ⟨j, rfl⟩ : ∃ j : ℕ, l = k + j := ⟨(l - k).toNat, by omega⟩
  -- In units of the place that is kept, the number is whole already.
  have hshift : (m : ℚ) * 2 ^ (k + j) = ((m * 2 ^ j : ℕ) : ℚ) * 2 ^ k := by
    rw [twoPow_add_natCast, Nat.cast_mul, Nat.cast_pow, Nat.cast_ofNat, mul_assoc]
  rw [hshift, mul_div_cancel_right₀ _ (twoPow_pos k).ne'] at hn
  rw [hn.eq_natCast, hshift]

/-- What keeps its own digits is rounded to itself. -/
theorem IsPlace.roundsTo (h : IsPlace (m * 2 ^ k) k) : RoundsTo (m * 2 ^ k) (m * 2 ^ k) := by
  refine .intro h ?_
  rw [mul_div_cancel_right₀ _ (twoPow_pos k).ne']
  exact isNearest_natCast m

/-- Zero is rounded to zero. -/
theorem roundsTo_zero : RoundsTo 0 0 := by
  have hzero : IsPlace (((0 : ℕ) : ℚ) * 2 ^ (-1074 : ℤ)) (-1074) :=
    isPlace_mul_twoPow_iff.mpr ⟨by norm_num, le_rfl, .inl rfl⟩
  simpa using hzero.roundsTo

/-- What is not below the least positive double is not rounded to zero. -/
theorem RoundsTo.pos (h : RoundsTo x v) (hx : 2 ^ (-1074 : ℤ) ≤ x) : 0 < v := by
  have hleast : IsPlace (((1 : ℕ) : ℚ) * 2 ^ (-1074 : ℤ)) (-1074) :=
    isPlace_mul_twoPow_iff.mpr ⟨by norm_num, le_rfl, .inl rfl⟩
  have hself := hleast.roundsTo
  rw [Nat.cast_one, one_mul] at hself
  exact (twoPow_pos _).trans_le (hself.mono h hx)

end FlightPlan.Binary64
