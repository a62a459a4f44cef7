import FlightPlan.Proofs.Binary64.Remainder

/-!
# `FlightPlan.Proofs.Binary64.Scientific`: digits and a power of ten, rounded once

`Represents x a` says that the double `a` is what the magnitude `x` is rounded to, as `IsRounded`
does, and that it has no minus sign. So a magnitude has one such double (`Represents.eq`), where
`IsRounded` allows a zero of either sign.

`Float.ofScientific` makes a double of digits and a power of ten. Few digits and a small power are
doubles themselves, and the one is multiplied or divided by the other; otherwise both are computed
with exactly. Either way the exact number is rounded once (`represents_ofScientific_mul`,
`represents_ofScientific_div`).
-/

set_option autoImplicit false

namespace FlightPlan.Binary64

open Float.Model (UnpackedFloat Format totalExponent)
open Float.Model.UnpackedFloat

variable {x y : ℚ} {a b : Float} {u : UnpackedFloat} {m k : ℕ} {e : ℤ}

/-! ### The double of a magnitude -/

/-- The double that a magnitude is rounded to. Infinity is one, and zero is the positive one. -/
structure Represents (x : ℚ) (a : Float) : Prop where
  isRounded : IsRounded x a
  sign : signOf a.toModel.unpack = .positive

/-- A magnitude is rounded to one double only, and in every bit. -/
theorem Represents.eq (ha : Represents x a) (hb : Represents x b) : a = b := by
  have hle := ha.isRounded.mono hb.isRounded le_rfl
  have hge := hb.isRounded.mono ha.isRounded le_rfl
  cases ha.isRounded with
  | infinite hainfinite _ _ =>
      cases hb.isRounded with
      | infinite hbinfinite _ _ => exact eq_of_unpack (hainfinite.trans hbinfinite.symm)
      | finite hbfinite _ => exact absurd hle (not_le_of_infinite hbfinite hainfinite)
  | finite hafinite _ =>
      cases hb.isRounded with
      | infinite hbinfinite _ _ => exact absurd hge (not_le_of_infinite hafinite hbinfinite)
      | finite hbfinite _ =>
          have hvalue := le_antisymm ((le_iff_value hafinite hbfinite).mp hle)
            ((le_iff_value hbfinite hafinite).mp hge)
          exact eq_of_value hafinite hbfinite hvalue (ha.sign.trans hb.sign.symm)

/-- What is rounded to zero is rounded to the positive zero. -/
theorem represents_of_roundsTo_zero (h : RoundsTo x 0) : Represents x 0.0 :=
  ⟨.finite (by decide) (by rwa [value_zero]), rfl⟩

/-- A magnitude that is not below the least double is not rounded to a negative zero. -/
theorem IsRounded.represents (h : IsRounded x a) (hx : 2 ^ (-1074 : ℤ) ≤ x) : Represents x a := by
  refine ⟨h, ?_⟩
  cases h with
  | finite hfinite hrounds => exact signOf_of_pos hfinite (hrounds.pos hx)
  | infinite hinfinite _ _ =>
      rw [hinfinite]
      rfl

/-- A number that a magnitude is rounded to is its double when it is packed with a positive
sign. -/
theorem Rounds.represents_pack (h : Rounds x u) (hsign : signOf u = .positive) :
    Represents x (.ofModel (.pack u)) := by
  refine ⟨h.isRounded_pack, ?_⟩
  show signOf (unpack .binary64 (pack .binary64 u)) = .positive
  by_cases hwithin : Within 971 u
  · rw [unpack_pack h.canonical hwithin, hsign]
  · obtain ⟨hfinite, -, -⟩ := h
    rcases u with _ | _ | t | ⟨t, m, e, hm⟩
    · contradiction
    · contradiction
    · exact absurd (.zero t) hwithin
    · have hlarge : ¬ e ≤ 971 := fun he => hwithin (.finite he)
      rw [unpack_pack_of_large hm (by omega)]
      exact hsign

/-- Beyond the range of doubles there is only infinity. -/
theorem Represents.eq_infinity (h : Represents x a) (hx : 2 ^ 1024 ≤ x) : a = 1.0 / 0.0 := by
  cases h.isRounded with
  | infinite hinfinite _ _ => exact eq_of_unpack hinfinite
  | finite hfinite hrounds =>
      have hbound : IsPlace (((2 ^ 52 : ℕ) : ℚ) * 2 ^ (972 : ℤ)) 972 :=
        isPlace_mul_twoPow_iff.mpr ⟨by decide, by decide, .inr le_rfl⟩
      have hpower : ((2 ^ 52 : ℕ) : ℚ) * 2 ^ (972 : ℤ) = 2 ^ 1024 := by
        rw [Nat.cast_pow, Nat.cast_ofNat, ← twoPow_add_natCast, ← zpow_natCast]
        rfl
      have hself := hbound.roundsTo
      rw [hpower] at hself
      exact absurd (hself.mono hrounds hx) (not_le.mpr (value_lt hfinite))

/-! ### Powers of ten -/

/-- Rounding keeps the sign, also of what becomes zero or infinite. -/
theorem signOf_roundWithAccuracy (s : Sign) (m : ℕ) (e : ℤ) (accuracy : Accuracy) :
    signOf (roundWithAccuracy .binary64 s m e accuracy) = s := by
  simp only [roundWithAccuracy]
  split <;> rfl

/-- The digits take in 53 more, so there are enough of them to round. -/
theorem represents_mul_tenPow (hm : 0 < m) (k : ℕ) (hscaled : 0 < m <<< 53) (hpower : 0 < 10 ^ k) :
    Represents (m * 10 ^ k) (.ofModel (.pack (UnpackedFloat.mul .binary64
      (.finite .positive (m <<< 53) (-53) hscaled) (.finite .positive (10 ^ k) 0 hpower)))) := by
  have hexact : (m * 10 ^ k : ℚ) = ((m <<< 53 * 10 ^ k : ℕ) : ℚ) * 2 ^ (-53 + 0 : ℤ) := by
    rw [Nat.shiftLeft_eq]
    push_cast
    ring
  rw [hexact]
  refine Rounds.represents_pack (rounds_roundWithAccuracy (.whole rfl) (le_targetExponent ?_))
    (signOf_roundWithAccuracy _ _ _ _)
  refine .inl (le_trans ?_ (Nat.le_mul_of_pos_right (m <<< 53) hpower))
  rw [Nat.shiftLeft_eq]
  exact le_trans (by decide) (Nat.le_mul_of_pos_left (2 ^ 53) hm)

/-- Dividing by a power of ten gives the double of the quotient, however large the power. -/
theorem represents_div_tenPow (hm : 0 < m) (k : ℕ) (hpower : 0 < 10 ^ k) :
    Represents (m / 10 ^ k) (.ofModel (.pack (UnpackedFloat.div .binary64
      (.finite .positive m 0 hm) (.finite .positive (10 ^ k) 0 hpower)))) := by
  have hdividend : exact (.finite .positive m 0 hm) = m := by
    rw [exact_finite_positive, zpow_zero, mul_one]
  have hdivisor : exact (.finite .positive (10 ^ k) 0 hpower) = 10 ^ k := by
    rw [exact_finite_positive, zpow_zero, mul_one, Nat.cast_pow, Nat.cast_ofNat]
  have hrounds := rounds_div rfl rfl (hdividend ▸ Nat.cast_nonneg m)
    (hdivisor ▸ pow_pos (by norm_num) k)
  rw [hdividend, hdivisor] at hrounds
  exact hrounds.represents_pack (signOf_roundWithAccuracy _ _ _ _)

/-- A number divided by a power of ten, before it is rounded. -/
theorem ofScientific_neg (hm : 0 < m) (hpos : 0 < k) (hk : k ≤ 2048 + m.log2) :
    UnpackedFloat.ofScientific .binary64 m (-(k : ℤ))
      = UnpackedFloat.div .binary64 (.finite .positive m 0 hm)
          (.finite .positive (10 ^ k) 0 (Nat.pow_pos (by decide))) := by
  unfold UnpackedFloat.ofScientific
  rw [dif_neg hm.ne']
  split
  · rename_i hhuge
    have hgreater : -(k : ℤ) > 2048 := hhuge
    omega
  split
  · rename_i htiny
    have hless : -(k : ℤ) < -(2048 + (m.log2 : ℤ)) := htiny
    omega
  · rw [if_neg (by omega)]
    simp only [Int.neg_neg, Int.toNat_natCast]

/-- A magnitude that is a whole number, told without fractions. -/
theorem Parts.value_eq_natCast {p : Parts} {n : ℕ}
    (h : p.significand * 2 ^ p.exponent.toNat = n * 2 ^ (-p.exponent).toNat) : p.value = n := by
  have hplace : p.exponent = p.exponent.toNat - (-p.exponent).toNat := by omega
  have hcast : (p.significand : ℚ) * 2 ^ p.exponent.toNat = n * 2 ^ (-p.exponent).toNat := by
    exact_mod_cast h
  rw [Parts.value, hplace, zpow_sub₀ two_ne_zero, zpow_natCast, zpow_natCast, ← mul_div_assoc,
    hcast, mul_div_cancel_right₀ _ (by positivity)]

/-- The powers of ten that are doubles. -/
theorem value_powersOfTen (k : ℕ) (hk : k < Float.exactlyRepresentablePowersOfTen.size) :
    Float.exactlyRepresentablePowersOfTen[k].isFinite = true
      ∧ value Float.exactlyRepresentablePowersOfTen[k] = 10 ^ k := by
  have htable : ∀ i : Fin 23,
      Float.exactlyRepresentablePowersOfTen[i].isFinite = true
        ∧ isNegative Float.exactlyRepresentablePowersOfTen[i] = false
        ∧ (parts Float.exactlyRepresentablePowersOfTen[i]).significand
            * 2 ^ (parts Float.exactlyRepresentablePowersOfTen[i]).exponent.toNat
          = 10 ^ i.val
            * 2 ^ (-(parts Float.exactlyRepresentablePowersOfTen[i]).exponent).toNat := by
    decide +kernel
  obtain ⟨hfinite, hpositive, hparts⟩ := htable ⟨k, hk⟩
  refine ⟨hfinite, ?_⟩
  show value Float.exactlyRepresentablePowersOfTen[(⟨k, hk⟩ : Fin 23)] = _
  rw [value_eq_parts hfinite, hpositive, if_neg Bool.false_ne_true, Parts.value_eq_natCast hparts]
  push_cast
  rfl

/-- A number times a power of ten. -/
theorem represents_ofScientific_mul (hm : 0 < m) (hk : k ≤ 2048) :
    Represents (m * 10 ^ k) (Float.ofScientific m false k) := by
  unfold Float.ofScientific
  split
  · rename_i hexact
    obtain ⟨hfinite, hvalue⟩ := value_toFloat hexact.1
    obtain ⟨hpower, hten⟩ := value_powersOfTen k (Nat.lt_succ_of_le hexact.2)
    have hrounded := isRounded_mul hfinite hpower (hvalue ▸ Nat.cast_nonneg m)
      (hten ▸ (pow_pos (by norm_num) k).le)
    rw [hvalue, hten] at hrounded
    have hleast : (2 : ℚ) ^ (-1074 : ℤ) ≤ 2 ^ (0 : ℤ) := twoPow_le_twoPow (by decide)
    have hone : (1 : ℚ) ≤ m * 10 ^ k :=
      one_le_mul_of_one_le_of_one_le (by exact_mod_cast hm) (one_le_pow₀ (by norm_num))
    exact hrounded.represents (hleast.trans (by rwa [zpow_zero]))
  · show Represents _ (.ofModel (.pack (UnpackedFloat.ofScientific .binary64 m k)))
    rw [ofScientific_natCast hm hk]
    exact represents_mul_tenPow hm k _ _

/-- A number divided by a power of ten. -/
theorem represents_ofScientific_div (hm : 0 < m) (hpos : 0 < k) (hk : k ≤ 2048 + m.log2) :
    Represents (m / 10 ^ k) (Float.ofScientific m true k) := by
  unfold Float.ofScientific
  split
  · rename_i hexact
    obtain ⟨hfinite, hvalue⟩ := value_toFloat hexact.1
    obtain ⟨hpower, hten⟩ := value_powersOfTen k (Nat.lt_succ_of_le hexact.2)
    have hrounded := isRounded_div hfinite hpower (hvalue ▸ Nat.cast_nonneg m)
      (hten ▸ pow_pos (by norm_num) k)
    rw [hvalue, hten] at hrounded
    refine hrounded.represents ?_
    have hleast : (2 : ℚ) ^ (-1074 : ℤ) ≤ 2 ^ (-100 : ℤ) := twoPow_le_twoPow (by decide)
    have hbound : (10 : ℚ) ^ k ≤ 10 ^ 22 := pow_le_pow_right₀ (by norm_num) hexact.2
    have hcount : (1 : ℚ) ≤ m := by exact_mod_cast hm
    calc
      (2 : ℚ) ^ (-1074 : ℤ) ≤ 2 ^ (-100 : ℤ) := hleast
      _ ≤ 1 / 10 ^ 22 := by norm_num
      _ ≤ m / 10 ^ k := div_le_div₀ (by positivity) hcount (by positivity) hbound
  · show Represents _ (.ofModel (.pack (UnpackedFloat.ofScientific .binary64 m (Int.negOfNat k))))
    have hexponent : Int.negOfNat k = -(k : ℤ) := Int.negOfNat_eq
    rw [hexponent, ofScientific_neg hm hpos hk]
    exact represents_div_tenPow hm k _

end FlightPlan.Binary64
