import FlightPlan.Proofs.Binary64.Value

/-!
# `FlightPlan.Proofs.Binary64.Rounded`: a result is the exact number, rounded

The arithmetic of doubles carries an exact result as a mantissa with two more digits, shifts it to
the place it is rounded at, and packs it. `Stands x` says that such a mantissa stands for the
number `x`. Shifting keeps that so, whatever number of digits is dropped (`Stands.shiftRight`),
and what is rounded then is `x` (`rounds_roundWithAccuracy`).

`IsRounded x a` says that the double `a` is what the magnitude `x` is rounded to: the nearest
number of 53 digits, or infinity where that number is out of range. What matters about a rounded
result follows from the exact number:

* `IsRounded.nonneg`, `IsRounded.pos`: the double is not negative, and positive unless the
  magnitude is below the least double;
* `IsRounded.mono`: it is not less than that of a lesser magnitude;
* `IsRounded.of_exact`: a magnitude that is the value of a double is not changed.
-/

set_option autoImplicit false

namespace FlightPlan.Binary64

open Float.Model (UnpackedFloat Format totalExponent)
open Float.Model.UnpackedFloat

variable {x y : ℚ} {a b : Float} {u : UnpackedFloat} {m : ℕ} {e : ℤ}

/-! ### Shifting -/

/-- The mantissa is the whole part of `x`, and the two digits behind it tell where `x` lies between
this number and the next. -/
inductive Stands (x : ℚ) : ExtendedMantissa → Prop
  | whole {m : ℕ} (h : x = m) : Stands x ⟨m, false, false⟩
  | low {m : ℕ} (hlow : m < x) (hhigh : x < m + 1 / 2) : Stands x ⟨m, false, true⟩
  | middle {m : ℕ} (h : x = m + 1 / 2) : Stands x ⟨m, true, false⟩
  | high {m : ℕ} (hlow : m + 1 / 2 < x) (hhigh : x < m + 1) : Stands x ⟨m, true, true⟩

/-- A shift by one bit halves the number that the mantissa stands for. -/
theorem Stands.shiftRightOne {em : ExtendedMantissa} (h : Stands x em) :
    Stands (x / 2) em.shiftRightOne := by
  obtain ⟨m, r, t⟩ := em
  have hshift : ExtendedMantissa.shiftRightOne ⟨m, r, t⟩ = ⟨m / 2, m % 2 != 0, r || t⟩ := rfl
  rw [hshift]
  -- The last digit of the mantissa becomes the first behind it.
  rcases Nat.even_or_odd' m with ⟨q, rfl | rfl⟩
  · have hquotient : 2 * q / 2 = q := by omega
    have hdigit : (2 * q % 2 != 0) = false := by simp
    rw [hquotient, hdigit]
    cases h with
    | whole h =>
        refine .whole ?_
        push_cast at h
        linarith
    | low hlow hhigh | high hlow hhigh =>
        push_cast at hlow hhigh
        exact .low (by linarith) (by linarith)
    | middle h =>
        push_cast at h
        exact .low (by linarith) (by linarith)
  · have hquotient : (2 * q + 1) / 2 = q := by omega
    have hdigit : ((2 * q + 1) % 2 != 0) = true := by simp
    rw [hquotient, hdigit]
    cases h with
    | whole h =>
        refine .middle ?_
        push_cast at h
        linarith
    | low hlow hhigh | high hlow hhigh =>
        push_cast at hlow hhigh
        exact .high (by linarith) (by linarith)
    | middle h =>
        push_cast at h
        exact .high (by linarith) (by linarith)

/-- A shift divides the number that the mantissa stands for by a power of two. -/
theorem Stands.shiftRight {em : ExtendedMantissa} (h : Stands x em) (k : ℕ) :
    Stands (x / 2 ^ k) (em >>> k) := by
  show Stands (x / 2 ^ k) (k.repeat ExtendedMantissa.shiftRightOne em)
  induction k with
  | zero =>
      rw [pow_zero, div_one]
      exact h
  | succ k ih =>
      rw [pow_succ, ← div_div]
      exact ih.shiftRightOne

/-- The mantissa is not above the number it stands for. -/
theorem Stands.mantissa_le {em : ExtendedMantissa} (h : Stands x em) : em.mantissa ≤ x := by
  cases h <;> simp only <;> linarith

/-- The number is below the next mantissa. -/
theorem Stands.lt_mantissa {em : ExtendedMantissa} (h : Stands x em) : x < em.mantissa + 1 := by
  cases h <;> simp only <;> linarith

/-- The two digits decide to which side the number is rounded. -/
theorem Stands.isNearest {em : ExtendedMantissa} (h : Stands x em) :
    IsNearest x em.roundedMantissa := by
  cases h with
  | whole h =>
      rw [h]
      exact isNearest_natCast _
  | @low m hlow hhigh =>
      have hround : ExtendedMantissa.roundedMantissa ⟨m, false, true⟩ = m := rfl
      rw [hround]
      refine ⟨by linarith, by linarith, ?_⟩
      rintro (h | h) <;> linarith
  | @middle m h =>
      have hround : ExtendedMantissa.roundedMantissa ⟨m, true, false⟩ = m + m % 2 := rfl
      rw [hround]
      rcases Nat.mod_two_eq_zero_or_one m with heven | hodd
      · rw [heven]
        refine ⟨?_, ?_, fun _ => heven⟩ <;> push_cast <;> linarith
      · rw [hodd]
        refine ⟨?_, ?_, fun _ => by omega⟩ <;> push_cast <;> linarith
  | @high m hlow hhigh =>
      have hround : ExtendedMantissa.roundedMantissa ⟨m, true, true⟩ = m + 1 := rfl
      rw [hround]
      refine ⟨?_, ?_, ?_⟩ <;> push_cast
      · linarith
      · linarith
      · rintro (h | h) <;> linarith

/-! ### Rounding -/

/-- The unpacked double is finite, with its digits in place, and is what `x` is rounded to. -/
structure Rounds (x : ℚ) (u : UnpackedFloat) : Prop where
  isFinite : u.isFinite = true
  canonical : Canonical u
  roundsTo : RoundsTo x (exact u)

/-- Of a number that has at least 53 digits, or digits of the least place, the place that it keeps
is known from its mantissa. -/
theorem isPlace_target (hx : m ≤ x) (hx' : x < m + 1)
    (he : e ≤ Format.binary64.targetExponent (totalExponent m e)) :
    IsPlace (x * 2 ^ e) (Format.binary64.targetExponent (totalExponent m e)) := by
  rw [targetExponent_eq] at he ⊢
  rw [totalExponent] at he ⊢
  refine ⟨le_max_right _ _, ?_, ?_⟩
  · have hlog : x < 2 ^ (m.log2 + 1) := by
      have hsucc : m + 1 ≤ 2 ^ (m.log2 + 1) := Nat.lt_log2_self
      exact hx'.trans_le (by exact_mod_cast hsucc)
    calc
      x * 2 ^ e < 2 ^ (m.log2 + 1) * 2 ^ e := mul_lt_mul_of_pos_right hlog (twoPow_pos e)
      _ = 2 ^ (e + (m.log2 + 1 : ℕ)) := (twoPow_add_natCast e _).symm
      _ ≤ _ := twoPow_le_twoPow (by omega)
  · by_cases hleast : (m.log2 : ℤ) + 1 + e - 53 ≤ -1074
    · exact .inl (max_eq_right hleast)
    have hm : m ≠ 0 := by
      rintro rfl
      rw [Nat.log2_zero] at he hleast
      omega
    have hlog : (2 : ℚ) ^ m.log2 ≤ x := by
      have hself : 2 ^ m.log2 ≤ m := Nat.log2_self_le hm
      exact le_trans (by exact_mod_cast hself) hx
    refine .inr ?_
    calc
      (2 : ℚ) ^ (max ((m.log2 : ℤ) + 1 + e - 53) (-1074) + 52) ≤ 2 ^ (e + m.log2) :=
        twoPow_le_twoPow (by omega)
      _ = 2 ^ m.log2 * 2 ^ e := twoPow_add_natCast e _
      _ ≤ x * 2 ^ e := mul_le_mul_of_nonneg_right hlog (twoPow_pos e).le

/-- Rounding up may carry into one more digit, which is then a zero and is dropped. -/
theorem rounds_carry (hm : m ≤ 2 ^ 53) (hleast : -1074 ≤ e) (hnormal : e = -1074 ∨ 2 ^ 52 ≤ m)
    {k : ℕ} (hk : k = (Format.binary64.targetExponent (totalExponent m e) - e).toNat) :
    IsPlace (((m / 2 ^ k : ℕ) : ℚ) * 2 ^ (e + k)) (e + k)
      ∧ ((m / 2 ^ k : ℕ) : ℚ) * 2 ^ (e + k) = m * 2 ^ e := by
  rw [targetExponent_eq, totalExponent] at hk
  -- The bound itself is the one mantissa with a digit too many.
  rcases hm.eq_or_lt with rfl | hlt
  · have hone : k = 1 := by
      rw [Nat.log2_two_pow] at hk
      omega
    rw [hone]
    refine ⟨isPlace_mul_twoPow_iff.mpr ⟨by norm_num, by omega, .inr (by norm_num)⟩, ?_⟩
    rw [twoPow_add_natCast]
    norm_num
    ring
  · have hlog : m.log2 ≤ 52 := log2_le_of_lt_pow hlt
    have hzero : k = 0 := by omega
    subst hzero
    rw [pow_zero, Nat.div_one, Nat.cast_zero, add_zero]
    exact ⟨isPlace_mul_twoPow_iff.mpr ⟨hlt, hleast, hnormal⟩, rfl⟩

/-- The mantissa is shifted by `k` digits, rounded to `r`, and then shifted by the carry `l`. -/
theorem roundWithAccuracy_eq {accuracy : Accuracy} {k r l : ℕ}
    (hk : k = (Format.binary64.targetExponent (totalExponent m e) - e).toNat)
    (hr : r = (ExtendedMantissa.ofMantissaAndAccuracy m accuracy >>> k).roundedMantissa)
    (hl : l = (Format.binary64.targetExponent (totalExponent r (e + k)) - (e + k)).toNat) :
    roundWithAccuracy .binary64 .positive m e accuracy
      = if h : r / 2 ^ l = 0 then .zero .positive
        else .finite .positive (r / 2 ^ l) (e + k + l) (Nat.pos_of_ne_zero h) := by
  have hlast : (ExtendedMantissa.ofMantissaAndAccuracy r .exact >>> l).mantissa = r / 2 ^ l :=
    mantissa_shiftRight r .exact l
  simp only [← hlast]
  subst hl hr hk
  rfl

/-- A mantissa that stands for `x` is rounded as `x` is, if it has enough digits. -/
theorem rounds_roundWithAccuracy {accuracy : Accuracy}
    (hx : Stands x (.ofMantissaAndAccuracy m accuracy))
    (he : e ≤ Format.binary64.targetExponent (totalExponent m e)) :
    Rounds (x * 2 ^ e) (roundWithAccuracy .binary64 .positive m e accuracy) := by
  obtain ⟨k, hk⟩ : ∃ k : ℕ, k = (Format.binary64.targetExponent (totalExponent m e) - e).toNat :=
    ⟨_, rfl⟩
  obtain ⟨r, hr⟩ : ∃ r : ℕ,
      r = (ExtendedMantissa.ofMantissaAndAccuracy m accuracy >>> k).roundedMantissa := ⟨_, rfl⟩
  obtain ⟨l, hl⟩ : ∃ l : ℕ,
      l = (Format.binary64.targetExponent (totalExponent r (e + k)) - (e + k)).toNat := ⟨_, rfl⟩
  rw [roundWithAccuracy_eq hk hr hl]
  have hmantissa : (ExtendedMantissa.ofMantissaAndAccuracy m accuracy).mantissa = m :=
    (mantissa_shiftRight m accuracy 0).trans (Nat.div_one m)
  -- After `k` digits the place is the one that the exact number keeps.
  have hplace : IsPlace (x * 2 ^ e) (e + k) := by
    have hbelow := hx.mantissa_le
    have habove := hx.lt_mantissa
    rw [hmantissa] at hbelow habove
    have htarget : e + k = Format.binary64.targetExponent (totalExponent m e) := by omega
    rw [htarget]
    exact isPlace_target hbelow habove he
  have hnearest : IsNearest (x * 2 ^ e / 2 ^ (e + k)) r := by
    rw [twoPow_add_natCast, mul_div_mul_right _ _ (twoPow_pos e).ne', hr]
    exact (hx.shiftRight k).isNearest
  -- The carry moves the place, and not the number.
  obtain ⟨hcanonical, hexact⟩ :=
    rounds_carry (hplace.nearest_le hnearest) hplace.least (hplace.le_nearest hnearest) hl
  have hrounds := RoundsTo.intro hplace hnearest
  rw [← hexact] at hrounds
  split
  · rename_i hzero
    rw [hzero, Nat.cast_zero, zero_mul] at hrounds
    exact ⟨rfl, trivial, hrounds⟩
  · refine ⟨rfl, hcanonical, ?_⟩
    rw [exact_finite_positive]
    exact hrounds

/-- Zero is rounded to a zero of either sign. -/
theorem rounds_zero (s : Sign) : Rounds 0 (.zero s) :=
  ⟨rfl, trivial, roundsTo_zero⟩

/-- A canonical number that is not negative is what its value is rounded to. -/
theorem rounds_self (hcanonical : Canonical u) (hu : u.isFinite = true) (hnonneg : 0 ≤ exact u) :
    Rounds (exact u) u := by
  refine ⟨hu, hcanonical, ?_⟩
  rcases zero_or_positive hu hnonneg with ⟨s, rfl⟩ | ⟨m, e, hm, rfl⟩
  · exact roundsTo_zero
  · rw [exact_finite_positive]
    exact IsPlace.roundsTo hcanonical

/-- A shift to the left adds as many bits as it goes. -/
theorem log2_shiftLeft (hm : 0 < m) (k : ℕ) : (m <<< k).log2 = m.log2 + k := by
  refine le_antisymm (log2_shiftLeft_le m k) ?_
  have hne : m <<< k ≠ 0 := by
    rw [Nat.shiftLeft_eq]
    exact (Nat.mul_pos hm (Nat.two_pow_pos k)).ne'
  rw [Nat.le_log2 hne, Nat.shiftLeft_eq, pow_add]
  exact Nat.mul_le_mul_right _ (Nat.log2_self_le hm.ne')

/-- Digits that are taken in are zeros. -/
theorem shiftLeft_mul_twoPow (m k : ℕ) (e : ℤ) :
    ((m <<< k : ℕ) : ℚ) * 2 ^ (e - k) = m * 2 ^ e := by
  have hexponent : (2 : ℚ) ^ e = 2 ^ k * 2 ^ (e - k) := by
    rw [← twoPow_add_natCast, sub_add_cancel]
  rw [Nat.shiftLeft_eq, hexponent]
  push_cast
  ring

/-- A whole number of units is rounded, however many digits it has. -/
theorem rounds_round (hm : 0 < m) :
    Rounds (m * 2 ^ e) (UnpackedFloat.round .binary64 .positive m e) := by
  simp only [UnpackedFloat.round, decreaseExponent]
  generalize hk : (e - Format.binary64.targetExponent (totalExponent m e)).toNat = k
  have htotal : totalExponent (m <<< k) (e - k) = totalExponent m e := by
    rw [totalExponent, totalExponent, log2_shiftLeft hm]
    push_cast
    ring
  rw [← shiftLeft_mul_twoPow m k e]
  refine rounds_roundWithAccuracy (.whole rfl) ?_
  rw [htotal]
  omega

/-! ### Doubles -/

/-- The double is what the magnitude `x` is rounded to: infinity beyond the range. -/
inductive IsRounded (x : ℚ) (a : Float) : Prop
  | finite (hfinite : a.isFinite = true) (h : RoundsTo x (value a))
  | infinite {v : ℚ} (hinfinite : a.toModel.unpack = .infinity .positive) (h : RoundsTo x v)
    (hlarge : 2 ^ 1024 ≤ v)

/-- Packing brings in the end of the range. -/
theorem Rounds.isRounded_pack (h : Rounds x u) : IsRounded x (.ofModel (.pack u)) := by
  obtain ⟨hfinite, hcanonical, hrounds⟩ := h
  by_cases hwithin : Within 971 u
  · obtain ⟨hfinite', hvalue⟩ := value_pack hcanonical hwithin
    exact .finite hfinite' (hvalue ▸ hrounds)
  -- Beyond the range there are only finite numbers, and a magnitude is not rounded to a negative
  -- one.
  rcases u with _ | _ | t | ⟨_ | _, m, e, hm⟩
  · contradiction
  · contradiction
  · exact absurd (.zero t) hwithin
  · have hneg : exact (.finite .negative m e hm) < 0 := by
      rw [exact_finite_negative, neg_lt_zero]
      exact mul_twoPow_pos hm e
    exact absurd hrounds.nonneg (not_le.mpr hneg)
  · have hlarge : ¬ e ≤ 971 := fun he => hwithin (.finite he)
    refine .infinite (unpack_pack_of_large hm (by omega)) hrounds ?_
    rw [exact_finite_positive]
    exact not_lt.mp (mt (exponent_le_iff hcanonical).mpr hlarge)

/-- What a magnitude is rounded to is a number. -/
theorem IsRounded.isNaN (h : IsRounded x a) : a.isNaN = false := by
  cases h with
  | finite hfinite _ => exact isNaN_of_isFinite hfinite
  | infinite hinfinite _ _ =>
      show a.toModel.unpack.isNaN = false
      rw [hinfinite]
      rfl

/-- What a magnitude is rounded to is not negative. -/
theorem IsRounded.nonneg (h : IsRounded x a) : (0.0 : Float) ≤ a := by
  cases h with
  | finite hfinite hrounds => exact (nonneg_iff_value hfinite).mpr hrounds.nonneg
  | infinite hinfinite _ _ => exact le_of_infinite (by decide) hinfinite

/-- What is not below the least positive double is not rounded to zero. -/
theorem IsRounded.pos (h : IsRounded x a) (hx : 2 ^ (-1074 : ℤ) ≤ x) : (0.0 : Float) < a := by
  cases h with
  | finite hfinite hrounds =>
      exact (pos_iff_value hfinite).mpr (hrounds.pos hx)
  | infinite hinfinite _ _ =>
      exact LawfulComparison.lt_iff.mpr
        ⟨le_of_infinite (by decide) hinfinite, not_le_of_infinite (by decide) hinfinite⟩

/-- A double that is not negative is what its own value is rounded to. -/
theorem isRounded_value (ha : a.isFinite = true) (hnonneg : 0 ≤ value a) :
    IsRounded (value a) a :=
  .finite ha (rounds_self (canonical_double a) ha hnonneg).roundsTo

/-- Rounding is monotone up to the end of the range. -/
theorem IsRounded.mono (ha : IsRounded x a) (hb : IsRounded y b) (hxy : x ≤ y) : a ≤ b := by
  cases hb with
  | infinite hinfinite _ _ => exact le_of_infinite ha.isNaN hinfinite
  | finite hfinite hrounds =>
      cases ha with
      | finite hfinite' hrounds' =>
          exact (le_iff_value hfinite' hfinite).mpr (hrounds'.mono hrounds hxy)
      | infinite _ hrounds' hlarge =>
          -- The lesser magnitude would be rounded to a number that no double reaches.
          exact absurd (hlarge.trans (hrounds'.mono hrounds hxy)) (not_le.mpr (value_lt hfinite))

/-- A magnitude with the digits of a double that is in the range of doubles is not changed. -/
theorem IsRounded.of_exact (h : IsRounded (m * 2 ^ e) a) (hm : m < 2 ^ 53) (he : -1074 ≤ e)
    (hrange : (m : ℚ) * 2 ^ e < 2 ^ 1024) : a.isFinite = true ∧ value a = m * 2 ^ e := by
  cases h with
  | finite hfinite hrounds => exact ⟨hfinite, hrounds.eq_self hm he⟩
  | infinite _ hrounds hlarge =>
      rw [hrounds.eq_self hm he] at hlarge
      exact absurd hrange (not_lt.mpr hlarge)

end FlightPlan.Binary64
