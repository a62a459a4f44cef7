import FlightPlan.Proofs.Binary64.Rounded

/-!
# `FlightPlan.Proofs.Binary64.Arithmetic`: arithmetic rounds the exact result

Sums, differences, products and quotients of finite doubles are the exact ones, rounded, as long as
these are not negative (`isRounded_add`, `isRounded_sub`, `isRounded_mul`, `isRounded_div`). A sum
is counted in units of the lower of two places, so it is exact before it is rounded. A product has
the digits of both its factors, and a quotient is computed to 53 digits, with the remainder telling
on which side of the middle it lies (`stands_div`). Either way there are enough digits to round.

No difference of two doubles is lost to rounding, because both are counted in units of the least
place (`zero_lt_sub`).
-/

set_option autoImplicit false

namespace FlightPlan.Binary64

open Float.Model (UnpackedFloat Format totalExponent)
open Float.Model.UnpackedFloat

variable {a b c : Float} {u v : UnpackedFloat} {m n : ℕ} {e f : ℤ}

/-! ### Sums and differences -/

/-- A number of units with a sign is rounded without it. -/
theorem rounds_normalize {m : ℤ} (hm : 0 ≤ m) (zeroSign : Sign) :
    Rounds (m * 2 ^ e) (UnpackedFloat.normalize .binary64 m e zeroSign) := by
  lift m to ℕ using hm
  rw [UnpackedFloat.normalize]
  split
  · rename_i hneg
    have := Int.compare_eq_lt.mp hneg
    omega
  · rename_i hzero
    rw [Int.compare_eq_eq.mp hzero, Int.cast_zero, zero_mul]
    exact rounds_zero zeroSign
  · rename_i hpos
    rw [Int.toNat_natCast, Int.cast_natCast]
    exact rounds_round (by have := Int.compare_eq_gt.mp hpos; omega)

/-- Both terms of a sum are counted in units of the lower place. -/
theorem apply_decreaseExponent (s : Sign) (m : ℕ) (hfe : f ≤ e) :
    ((s.apply (decreaseExponent m e f).1 : ℤ) : ℚ) * 2 ^ f = s.apply m * 2 ^ e := by
  have hshift := shiftLeft_mul_twoPow m (e - f).toNat e
  have hplace : e - ((e - f).toNat : ℤ) = f := by omega
  rw [hplace] at hshift
  show ((s.apply ((m <<< (e - f).toNat : ℕ) : ℤ) : ℤ) : ℚ) * 2 ^ f = _
  cases s with
  | positive => exact_mod_cast hshift
  | negative =>
      simp only [Sign.apply, Int.cast_neg, neg_mul, Int.cast_natCast]
      rw [hshift]

/-- Before packing a sum is what the exact sum is rounded to, if that is not negative. -/
theorem rounds_add (hu : Canonical u) (hv : Canonical v) (hufinite : u.isFinite = true)
    (hvfinite : v.isFinite = true) (hnonneg : 0 ≤ exact u + exact v) :
    Rounds (exact u + exact v) (UnpackedFloat.add .binary64 u v) := by
  rcases u with _ | _ | s | ⟨s, m, e, hm⟩
  · contradiction
  · contradiction
  · rw [exact_zero, zero_add] at hnonneg ⊢
    rcases v with _ | _ | t | ⟨t, n, f, hn⟩
    · contradiction
    · contradiction
    · cases s <;> cases t <;> exact rounds_zero _
    · exact rounds_self hv hvfinite hnonneg
  · rcases v with _ | _ | t | ⟨t, n, f, hn⟩
    · contradiction
    · contradiction
    · rw [exact_zero, add_zero] at hnonneg ⊢
      exact rounds_self hu hufinite hnonneg
    · -- In units of the lower place the sum is a whole number, and nothing is dropped before it is
      -- rounded.
      have hsum : exact (.finite s m e hm) + exact (.finite t n f hn)
          = ((s.apply (decreaseExponent m e (min e f)).1
            + t.apply (decreaseExponent n f (min e f)).1 : ℤ) : ℚ) * 2 ^ min e f := by
        rw [Int.cast_add, add_mul, apply_decreaseExponent s m (min_le_left e f),
          apply_decreaseExponent t n (min_le_right e f)]
        rfl
      rw [hsum] at hnonneg ⊢
      refine rounds_normalize ?_ .positive
      exact_mod_cast nonneg_of_mul_nonneg_left hnonneg (twoPow_pos _)

/-- A difference is the sum with the other sign. -/
theorem unpacked_sub_eq_add_neg (u v : UnpackedFloat) :
    UnpackedFloat.sub .binary64 u v = UnpackedFloat.add .binary64 u v.neg := by
  rcases u with _ | _ | s | ⟨s, m, e, hm⟩ <;> rcases v with _ | _ | t | ⟨t, n, f, hn⟩ <;> try rfl
  have happly (k : ℤ) : s.apply (decreaseExponent m e (min e f)).1 - t.apply k
      = s.apply (decreaseExponent m e (min e f)).1 + (-t).apply k := by
    cases t with
    | positive => rfl
    | negative => exact sub_neg_eq_add _ _
  simp only [UnpackedFloat.sub, UnpackedFloat.add, UnpackedFloat.neg, happly]

/-- The sum of two finite doubles is what the exact sum is rounded to, if that is not negative. -/
theorem isRounded_add (ha : a.isFinite = true) (hb : b.isFinite = true)
    (hnonneg : 0 ≤ value a + value b) : IsRounded (value a + value b) (a + b) :=
  (rounds_add (canonical_double a) (canonical_double b) ha hb hnonneg).isRounded_pack

/-- The difference of two finite doubles is what the exact one is rounded to, if that is not
negative. -/
theorem isRounded_sub (ha : a.isFinite = true) (hb : b.isFinite = true)
    (hnonneg : 0 ≤ value a - value b) : IsRounded (value a - value b) (a - b) := by
  have hneg : value a - value b = exact a.toModel.unpack + exact b.toModel.unpack.neg := by
    rw [exact_neg, ← sub_eq_add_neg]
    rfl
  have hfinite : b.toModel.unpack.neg.isFinite = true := by
    have hb' : b.toModel.unpack.isFinite = true := hb
    revert hb'
    cases b.toModel.unpack <;> exact id
  have hrounds := rounds_add (canonical_double a) (canonical_double b).neg ha hfinite
    (hneg ▸ hnonneg)
  rw [← hneg, ← unpacked_sub_eq_add_neg] at hrounds
  exact hrounds.isRounded_pack

/-- A finite double is a whole number of the least places. -/
theorem exists_units (ha : a.isFinite = true) : ∃ z : ℤ, value a = z * 2 ^ (-1074 : ℤ) := by
  rcases (isFinite_iff_bounded.mp ha).zero_or_finite with ⟨t, hu⟩ | ⟨t, m, e, hm, hu, -, hleast, -⟩
  · exact ⟨0, by rw [value_of_zero hu, Int.cast_zero, zero_mul]⟩
  · obtain ⟨k, rfl⟩ : ∃ k : ℕ, e = -1074 + k := ⟨(e + 1074).toNat, by omega⟩
    refine ⟨t.apply m * 2 ^ k, ?_⟩
    rw [value, hu]
    show (t.apply m : ℚ) * 2 ^ (-1074 + k : ℤ) = _
    rw [twoPow_add_natCast, Int.cast_mul, Int.cast_pow, Int.cast_ofNat, mul_assoc]

/-- A difference is zero only between equal doubles, because the least place has no digits to be
rounded away behind it. -/
theorem zero_lt_sub (ha : a.isFinite = true) (hb : b.isFinite = true) (hab : a < b) :
    (0.0 : Float) < b - a := by
  have hlt := (lt_iff_value ha hb).mp hab
  obtain ⟨y, hy⟩ := exists_units ha
  obtain ⟨z, hz⟩ := exists_units hb
  refine (isRounded_sub hb ha (sub_pos.mpr hlt).le).pos ?_
  rw [hy, hz] at hlt ⊢
  have hunits : y < z := by exact_mod_cast lt_of_mul_lt_mul_right hlt (twoPow_pos _).le
  have hone : (1 : ℚ) ≤ z - y := by
    have hsucc : (y : ℚ) + 1 ≤ z := by exact_mod_cast Int.add_one_le_of_lt hunits
    linarith
  rw [← sub_mul]
  exact le_mul_of_one_le_left (twoPow_pos _).le hone

/-- From one number, a greater number is no less far away. -/
theorem sub_le_sub_of_le (ha : a.isFinite = true) (hb : b.isFinite = true)
    (hc : c.isFinite = true) (hab : a < b) (hbc : b ≤ c) : b - a ≤ c - a := by
  have hlt := (lt_iff_value ha hb).mp hab
  have hle := (le_iff_value hb hc).mp hbc
  exact (isRounded_sub hb ha (by linarith)).mono (isRounded_sub hc ha (by linarith)) (by linarith)

/-! ### Products and quotients -/

/-- A mantissa of 53 digits or more has enough of them, and so has one at the least place. -/
theorem le_targetExponent (h : 2 ^ 52 ≤ m ∨ e ≤ -1074) :
    e ≤ Format.binary64.targetExponent (totalExponent m e) := by
  rw [targetExponent_eq, totalExponent]
  rcases h with hm | he
  · have hlog : 52 ≤ m.log2 := log2_mono (m := 2 ^ 52) hm
    omega
  · omega

/-- Before packing a product is what the exact product is rounded to. -/
theorem rounds_mul (hu : Canonical u) (hv : Canonical v) (hufinite : u.isFinite = true)
    (hvfinite : v.isFinite = true) (hunonneg : 0 ≤ exact u) (hvnonneg : 0 ≤ exact v) :
    Rounds (exact u * exact v) (UnpackedFloat.mul .binary64 u v) := by
  rcases zero_or_positive hufinite hunonneg with ⟨s, rfl⟩ | ⟨m, e, hm, rfl⟩
  · rw [exact_zero, zero_mul]
    rcases zero_or_positive hvfinite hvnonneg with ⟨t, rfl⟩ | ⟨n, f, hn, rfl⟩ <;>
      exact rounds_zero _
  rcases zero_or_positive hvfinite hvnonneg with ⟨t, rfl⟩ | ⟨n, f, hn, rfl⟩
  · rw [exact_zero, mul_zero]
    exact rounds_zero _
  have hproduct : exact (.finite .positive m e hm) * exact (.finite .positive n f hn)
      = ((m * n : ℕ) : ℚ) * 2 ^ (e + f) := by
    rw [exact_finite_positive, exact_finite_positive, zpow_add₀ two_ne_zero]
    push_cast
    ring
  rw [hproduct]
  refine rounds_roundWithAccuracy (.whole rfl) (le_targetExponent ?_)
  -- A factor with all its digits is enough. Otherwise both have digits of the least place.
  obtain ⟨-, -, hmnormal⟩ := isPlace_mul_twoPow_iff.mp hu
  obtain ⟨-, -, hnnormal⟩ := isPlace_mul_twoPow_iff.mp hv
  rcases hmnormal with rfl | hmlarge
  · rcases hnnormal with rfl | hnlarge
    · exact .inr (by omega)
    · exact .inl (hnlarge.trans (Nat.le_mul_of_pos_left n hm))
  · exact .inl (hmlarge.trans (Nat.le_mul_of_pos_right m hn))

/-- The product of two finite doubles that are not negative is what the exact one is rounded
to. -/
theorem isRounded_mul (ha : a.isFinite = true) (hb : b.isFinite = true) (hanonneg : 0 ≤ value a)
    (hbnonneg : 0 ≤ value b) : IsRounded (value a * value b) (a * b) :=
  (rounds_mul (canonical_double a) (canonical_double b) ha hb hanonneg hbnonneg).isRounded_pack

/-- The rest of a division tells where the quotient lies behind its whole part. -/
theorem stands_fraction {q r : ℕ} (hr : r < n) :
    Stands (q + r / n) (.ofMantissaAndAccuracy q (accuracyOfFraction r n)) := by
  have hpos : (0 : ℚ) < n := by exact_mod_cast Nat.zero_lt_of_lt hr
  have hfraction : (r / n : ℚ) < 1 := (div_lt_one hpos).mpr (by exact_mod_cast hr)
  rw [accuracyOfFraction]
  split
  · rename_i hzero
    rw [hzero, Nat.cast_zero, zero_div, add_zero]
    exact .whole rfl
  rename_i hzero
  have hrest : (0 : ℚ) < r / n := div_pos (by exact_mod_cast Nat.pos_of_ne_zero hzero) hpos
  -- The rest is compared with the middle without dividing it.
  rcases Nat.lt_trichotomy (2 * r) n with hlow | hmiddle | hhigh
  · rw [Nat.compare_eq_lt.mpr hlow]
    have hhalf : (r / n : ℚ) < 1 / 2 := by
      rw [div_lt_div_iff₀ hpos two_pos]
      have : (2 * r : ℚ) < n := by exact_mod_cast hlow
      linarith
    exact .low (by linarith) (by linarith)
  · rw [Nat.compare_eq_eq.mpr hmiddle]
    refine .middle ?_
    have hhalf : (r / n : ℚ) = 1 / 2 := by
      rw [div_eq_div_iff hpos.ne' two_ne_zero]
      have : (2 * r : ℚ) = n := by exact_mod_cast hmiddle
      linarith
    rw [hhalf]
  · rw [Nat.compare_eq_gt.mpr hhigh]
    have hhalf : (1 / 2 : ℚ) < r / n := by
      rw [div_lt_div_iff₀ two_pos hpos]
      have : (n : ℚ) < 2 * r := by exact_mod_cast hhigh
      linarith
    exact .high (by linarith) (by linarith)

/-- A whole quotient and its remainder. -/
theorem stands_div (m : ℕ) (hn : 0 < n) :
    Stands (m / n : ℚ) (.ofMantissaAndAccuracy (m / n) (accuracyOfFraction (m % n) n)) := by
  have hpos : (n : ℚ) ≠ 0 := by exact_mod_cast hn.ne'
  have hquotient : (m / n : ℚ) = (m / n : ℕ) + (m % n : ℕ) / n := by
    have hdivision : ((m / n : ℕ) : ℚ) * n + (m % n : ℕ) = m := by
      exact_mod_cast Nat.div_add_mod' m n
    rw [← hdivision, add_div, mul_div_cancel_right₀ _ hpos]
  rw [hquotient]
  exact stands_fraction (Nat.mod_lt m hn)

/-- Digits taken in by the dividend are digits of the quotient. -/
theorem div_mul_twoPow (m n : ℕ) {k : ℕ} {place : ℤ} (hk : e - f = place + k) :
    (m * 2 ^ e : ℚ) / (n * 2 ^ f) = ((m <<< k : ℕ) / n : ℚ) * 2 ^ place := by
  have hexponent : (2 : ℚ) ^ e = 2 ^ k * 2 ^ place * 2 ^ f := by
    rw [← twoPow_add_natCast, ← zpow_add₀ two_ne_zero, ← hk, sub_add_cancel]
  rw [Nat.shiftLeft_eq, hexponent, ← mul_assoc, mul_div_mul_right _ _ (twoPow_pos f).ne']
  push_cast
  ring

/-- A dividend with more digits than the divisor has a quotient of as many digits. -/
theorem pow_le_div_of_log2 {k : ℕ} (hm : m ≠ 0) (hn : 0 < n) (h : k + (n.log2 + 1) ≤ m.log2) :
    2 ^ k ≤ m / n := by
  refine (Nat.le_div_iff_mul_le hn).mpr ?_
  have hdivisor : n ≤ 2 ^ (n.log2 + 1) := Nat.lt_log2_self.le
  calc
    2 ^ k * n ≤ 2 ^ k * 2 ^ (n.log2 + 1) := Nat.mul_le_mul_left _ hdivisor
    _ = 2 ^ (k + (n.log2 + 1)) := (pow_add 2 k _).symm
    _ ≤ 2 ^ m.log2 := Nat.pow_le_pow_right two_pos h
    _ ≤ m := Nat.log2_self_le hm

/-- Before packing a quotient is what the exact quotient is rounded to. -/
theorem rounds_div (hufinite : u.isFinite = true) (hvfinite : v.isFinite = true)
    (hunonneg : 0 ≤ exact u) (hvpos : 0 < exact v) :
    Rounds (exact u / exact v) (UnpackedFloat.div .binary64 u v) := by
  rcases zero_or_positive hvfinite hvpos.le with ⟨t, rfl⟩ | ⟨n, f, hn, rfl⟩
  · exact absurd hvpos (lt_irrefl 0)
  rcases zero_or_positive hufinite hunonneg with ⟨s, rfl⟩ | ⟨m, e, hm, rfl⟩
  · rw [exact_zero, zero_div]
    exact rounds_zero _
  simp only [UnpackedFloat.div, divCore]
  generalize hplace : min (e - f)
    (Format.binary64.targetExponent (totalExponent m e - totalExponent n f)) = place
  obtain ⟨k, hk⟩ : ∃ k : ℕ, e - f = place + k := ⟨(e - f - place).toNat, by omega⟩
  have hshift : (e - f - place).toNat = k := by omega
  rw [exact_finite_positive, exact_finite_positive, div_mul_twoPow m n hk, hshift]
  refine rounds_roundWithAccuracy (stands_div _ hn) (le_targetExponent ?_)
  rw [targetExponent_eq, totalExponent, totalExponent] at hplace
  by_cases hleast : place ≤ -1074
  · exact .inr hleast
  -- Above the least place the dividend has taken in 53 digits more than the divisor has.
  have hne : m <<< k ≠ 0 := by
    rw [Nat.shiftLeft_eq]
    exact (Nat.mul_pos hm (Nat.two_pow_pos k)).ne'
  refine .inl (pow_le_div_of_log2 hne hn ?_)
  rw [log2_shiftLeft hm]
  omega

/-- The quotient of two finite doubles, by a positive one, is what the exact one is rounded to. -/
theorem isRounded_div (ha : a.isFinite = true) (hb : b.isFinite = true) (hnonneg : 0 ≤ value a)
    (hpos : 0 < value b) : IsRounded (value a / value b) (a / b) :=
  (rounds_div ha hb hnonneg hpos).isRounded_pack

end FlightPlan.Binary64
