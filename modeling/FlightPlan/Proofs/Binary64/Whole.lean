import FlightPlan.Proofs.Binary64.Arithmetic

/-!
# `FlightPlan.Proofs.Binary64.Whole`: rounding to whole numbers and to tenths

A double that is not negative is rounded to the whole number at or below its value and one half
(`value_round`), or to the one at or below its value (`value_floor`). The whole part is computed in
a machine word and the rest by a subtraction, which is exact, because no digit of the rest is at a
lower place than the digits of the double.

`Follows g G` says of a function on doubles that it rounds what the function `G` on magnitudes
makes of the value, and that it leaves infinity alone. Such a function keeps what is not negative
so (`Follows.nonneg`), and is monotone if `G` is (`Follows.mono`). Products and quotients with a
fixed double follow, and so does rounding to whole numbers. Rounding to tenths is made of the
three (`roundTenth_nonneg`, `roundTenth_mono`).
-/

set_option autoImplicit false

namespace FlightPlan.Binary64

open Float.Model (UnpackedFloat Format totalExponent)
open Float.Model.UnpackedFloat

variable {a b c : Float} {m n : ℕ} {e : ℤ}

/-! ### Words -/

/-- A place that is not behind the point leaves a whole number. -/
theorem natCast_mul_twoPow (m k : ℕ) : (m : ℚ) * 2 ^ (k : ℤ) = ((m * 2 ^ k : ℕ) : ℚ) := by
  push_cast
  rw [zpow_natCast]

/-- The whole part of a magnitude. -/
theorem roundToInt_positive (m : ℕ) (e : ℤ) :
    roundToInt .positive m e = (⌊(m : ℚ) * 2 ^ e⌋₊ : ℕ) := by
  show (((ExtendedMantissa.ofMantissaAndAccuracy (decreaseExponent m e 0).1 .exact
    >>> (0 - (decreaseExponent m e 0).2).toNat).mantissa : ℕ) : ℤ) = _
  rw [mantissa_shiftRight]
  congr 1
  rcases le_total 0 e with he | he
  · -- The number is whole already.
    obtain ⟨k, rfl⟩ := Int.eq_ofNat_of_zero_le he
    have hshift : (decreaseExponent m (k : ℤ) 0).1 = m * 2 ^ k := by
      show m <<< ((k : ℤ) - 0).toNat = _
      rw [sub_zero, Int.toNat_natCast, Nat.shiftLeft_eq]
    have hplace : (0 - (decreaseExponent m (k : ℤ) 0).2).toNat = 0 := by
      show (0 - ((k : ℤ) - ((k : ℤ) - 0).toNat)).toNat = 0
      omega
    rw [hshift, hplace, natCast_mul_twoPow, Nat.floor_natCast]
    exact Nat.div_one _
  · obtain ⟨k, rfl⟩ : ∃ k : ℕ, e = -k := ⟨(-e).toNat, by omega⟩
    have hnumber : (m : ℚ) * 2 ^ (-(k : ℤ)) = (m : ℚ) / ((2 ^ k : ℕ) : ℚ) := by
      push_cast
      rw [zpow_neg, zpow_natCast, div_eq_mul_inv]
    have hshift : (decreaseExponent m (-(k : ℤ)) 0).1 = m := by
      show m <<< (-(k : ℤ) - 0).toNat = m
      have hnone : (-(k : ℤ) - 0).toNat = 0 := by omega
      rw [hnone, Nat.shiftLeft_zero]
    have hplace : (0 - (decreaseExponent m (-(k : ℤ)) 0).2).toNat = k := by
      show (0 - (-(k : ℤ) - (-(k : ℤ) - 0).toNat)).toNat = k
      omega
    rw [hshift, hplace, hnumber, Nat.floor_div_eq_div]
    rfl

/-- The whole part of a double as a word. -/
theorem toNat_toUInt64 (ha : a.isFinite = true) (hnonneg : 0 ≤ value a)
    (hlt : value a < 2 ^ 64) : a.toUInt64.toNat = ⌊value a⌋₊ := by
  have hsize : ⌊value a⌋₊ < UInt64.size := by
    refine (Nat.floor_lt hnonneg).mpr (hlt.trans_eq ?_)
    norm_num [UInt64.size]
  have hint : a.toModel.unpack.toInt 0 (UInt64.size - 1) = (⌊value a⌋₊ : ℕ) := by
    have hfinite : a.toModel.unpack.isFinite = true := ha
    rw [value] at hnonneg ⊢
    rcases zero_or_positive hfinite hnonneg with ⟨s, hu⟩ | ⟨m, e, hm, hu⟩
    · rw [hu, exact_zero, Nat.floor_zero]
      rfl
    · rw [hu, exact_finite_positive]
      exact roundToInt_positive m e
  show (UInt64.ofNatClamp (a.toModel.unpack.toInt 0 (UInt64.size - 1)).toNat).toNat = _
  rw [hint, Int.toNat_natCast, UInt64.ofNatClamp, dif_pos hsize]
  rfl

/-- A word as a double. -/
theorem isRounded_toFloat (n : UInt64) : IsRounded n.toNat n.toFloat := by
  have hrounds := rounds_normalize (e := 0) (Int.natCast_nonneg n.toNat) .positive
  rw [zpow_zero, mul_one, Int.cast_natCast] at hrounds
  exact hrounds.isRounded_pack

/-- A whole number with the digits of a double is not changed. -/
theorem IsRounded.of_natCast (h : IsRounded n a) (hn : n < 2 ^ 53) :
    a.isFinite = true ∧ value a = n := by
  have hunits : (n : ℚ) * 2 ^ (0 : ℤ) = n := by rw [zpow_zero, mul_one]
  have hrange : (n : ℚ) * 2 ^ (0 : ℤ) < 2 ^ 1024 := by
    have hlt : (n : ℚ) < 2 ^ 53 := by exact_mod_cast hn
    rw [hunits]
    exact hlt.trans (pow_lt_pow_right₀ one_lt_two (by decide))
  rw [← hunits] at h ⊢
  exact h.of_exact hn (by decide) hrange

/-- Digits of a double, in a word. -/
theorem value_toFloat (hn : n < 2 ^ 53) :
    n.toUInt64.toFloat.isFinite = true ∧ value n.toUInt64.toFloat = n := by
  have hword : n.toUInt64.toNat = n := UInt64.toNat_ofNat_of_lt (hn.trans (by decide))
  have hrounded := isRounded_toFloat n.toUInt64
  rw [hword] at hrounded
  exact hrounded.of_natCast hn

/-! ### Rounding to a whole number -/

/-- The value from which all doubles are whole. -/
theorem value_wholeFrom : value wholeFrom = 2 ^ 52 := by
  rw [value_of_positive (m := 2 ^ 52) (e := 0) rfl]
  norm_num

/-- The value of one. -/
theorem value_one : value 1.0 = 1 := by
  rw [value_of_positive (m := 2 ^ 52) (e := -52) rfl]
  norm_num

/-- The value of one half. -/
theorem value_half : value 0.5 = 1 / 2 := by
  rw [value_of_positive (m := 2 ^ 52) (e := -53) rfl]
  norm_num

/-- The whole part of a magnitude below `wholeFrom` is a double. -/
theorem value_wholePart (ha : a.isFinite = true) (hnonneg : 0 ≤ value a)
    (hlt : value a < 2 ^ 52) :
    (wholePart a).isFinite = true ∧ value (wholePart a) = ⌊value a⌋₊ := by
  have hword : a.toUInt64.toNat = ⌊value a⌋₊ :=
    toNat_toUInt64 ha hnonneg (hlt.trans (by norm_num))
  have hdigits : a.toUInt64.toNat < 2 ^ 53 := by
    rw [hword]
    refine (Nat.floor_lt hnonneg).mpr (hlt.trans ?_)
    norm_num
  rw [← hword]
  exact (isRounded_toFloat _).of_natCast hdigits

/-- The whole number after a double that is one. -/
theorem value_add_one (ha : a.isFinite = true) (hvalue : value a = n) (hn : n < 2 ^ 52) :
    (a + 1.0).isFinite = true ∧ value (a + 1.0) = (n + 1 : ℕ) := by
  have hsum : value a + value 1.0 = (n + 1 : ℕ) := by
    rw [hvalue, value_one, Nat.cast_add, Nat.cast_one]
  have hrounded := isRounded_add (b := 1.0) ha (by decide) (by rw [hsum]; exact Nat.cast_nonneg _)
  rw [hsum] at hrounded
  exact hrounded.of_natCast (by omega)

/-- What is left of a number after its whole part has digits at the places of the number only. -/
theorem exists_rest (m : ℕ) (e : ℤ) :
    ∃ r ≤ m, (m : ℚ) * 2 ^ e - ⌊(m : ℚ) * 2 ^ e⌋₊ = r * 2 ^ e := by
  rcases le_total 0 e with he | he
  · -- A whole number has no rest.
    obtain ⟨k, rfl⟩ := Int.eq_ofNat_of_zero_le he
    refine ⟨0, Nat.zero_le m, ?_⟩
    rw [natCast_mul_twoPow, Nat.floor_natCast, sub_self, Nat.cast_zero, zero_mul]
  · obtain ⟨k, rfl⟩ : ∃ k : ℕ, e = -k := ⟨(-e).toNat, by omega⟩
    have hinverse : (2 : ℚ) ^ k * 2 ^ (-(k : ℤ)) = 1 := by
      rw [zpow_neg, zpow_natCast, mul_inv_cancel₀ (pow_ne_zero k two_ne_zero)]
    -- In units of the place the whole part is a whole number too, and not above the mantissa.
    have hwhole : ⌊(m : ℚ) * 2 ^ (-(k : ℤ))⌋₊ * 2 ^ k ≤ m := by
      have hfloor : (⌊(m : ℚ) * 2 ^ (-(k : ℤ))⌋₊ : ℚ) ≤ m * 2 ^ (-(k : ℤ)) :=
        Nat.floor_le (mul_nonneg (Nat.cast_nonneg m) (twoPow_pos _).le)
      have hscale : (0 : ℚ) ≤ 2 ^ k := pow_nonneg zero_le_two k
      have hscaled := mul_le_mul_of_nonneg_right hfloor hscale
      rw [mul_assoc, mul_comm ((2 : ℚ) ^ (-(k : ℤ))), hinverse, mul_one] at hscaled
      exact_mod_cast hscaled
    refine ⟨m - ⌊(m : ℚ) * 2 ^ (-(k : ℤ))⌋₊ * 2 ^ k, Nat.sub_le .., ?_⟩
    rw [Nat.cast_sub hwhole, sub_mul]
    push_cast
    rw [mul_assoc _ ((2 : ℚ) ^ k), hinverse, mul_one]

/-- So it is a double. -/
theorem value_sub_wholePart (ha : a.isFinite = true) (hnonneg : 0 ≤ value a)
    (hlt : value a < 2 ^ 52) :
    (a - wholePart a).isFinite = true ∧ value (a - wholePart a) = value a - ⌊value a⌋₊ := by
  obtain ⟨hfinite, hwhole⟩ := value_wholePart ha hnonneg hlt
  have hfloor : (⌊value a⌋₊ : ℚ) ≤ value a := Nat.floor_le hnonneg
  have hrounded := isRounded_sub ha hfinite (by rw [hwhole]; exact sub_nonneg.mpr hfloor)
  rw [hwhole] at hrounded
  have hcanonical := canonical_double a
  rcases zero_or_positive ha hnonneg with ⟨s, hu⟩ | ⟨m, e, hm, hu⟩
  · rw [value_of_zero hu, Nat.floor_zero, Nat.cast_zero, sub_zero] at hrounded ⊢
    exact_mod_cast hrounded.of_natCast (n := 0) (by norm_num)
  have hvalue := value_of_positive hu
  rw [hu] at hcanonical
  obtain ⟨hdigits, hleast, -⟩ := isPlace_mul_twoPow_iff.mp hcanonical
  obtain ⟨r, hr, hrest⟩ := exists_rest m e
  rw [← hvalue] at hrest
  have hrange : (r : ℚ) * 2 ^ e < 2 ^ 1024 := by
    refine lt_of_le_of_lt ?_ (value_lt ha)
    rw [← hrest]
    exact sub_le_self _ (Nat.cast_nonneg _)
  rw [hrest] at hrounded ⊢
  exact hrounded.of_exact (by omega) hleast hrange

/-- A double that is not negative is its own absolute value. -/
theorem value_abs (ha : a.isFinite = true) (hnonneg : 0 ≤ value a) :
    a.abs.isFinite = true ∧ value a.abs = value a := by
  have hcanonical := canonical_double a
  have hwithin := isFinite_iff_bounded.mp ha
  rw [Bounded] at hwithin
  have hmagnitude : Canonical a.toModel.unpack.abs ∧ Within 971 a.toModel.unpack.abs
      ∧ exact a.toModel.unpack.abs = value a := by
    rw [value]
    rcases zero_or_positive ha hnonneg with ⟨s, hu⟩ | ⟨m, e, hm, hu⟩
    · rw [hu]
      exact ⟨trivial, .zero .positive, rfl⟩
    · rw [hu] at hcanonical hwithin ⊢
      exact ⟨hcanonical, hwithin, rfl⟩
  rw [← hmagnitude.2.2]
  exact value_pack hmagnitude.1 hmagnitude.2.1

/-- One half is enough to be rounded up. -/
theorem floor_add_half {v : ℚ} (hv : 0 ≤ v) :
    ⌊v + 1 / 2⌋₊ = if 1 / 2 ≤ v - ⌊v⌋₊ then ⌊v⌋₊ + 1 else ⌊v⌋₊ := by
  have hlow := Nat.floor_le hv
  have hhigh := Nat.lt_floor_add_one v
  rw [Nat.floor_eq_iff (by linarith)]
  split
  · push_cast
    exact ⟨by linarith, by linarith⟩
  · exact ⟨by linarith, by linarith⟩

/-- The whole part of a whole number and a half. -/
theorem floor_natCast_add_half (n : ℕ) : ⌊(n : ℚ) + 1 / 2⌋₊ = n := by
  rw [floor_add_half (Nat.cast_nonneg n), Nat.floor_natCast, sub_self, if_neg (by norm_num)]

/-- A magnitude from `wholeFrom` on has no digits behind the point. -/
theorem exists_natCast_of_large (ha : a.isFinite = true) (hlarge : 2 ^ 52 ≤ value a) :
    ∃ n : ℕ, value a = n := by
  have hpos : (0 : ℚ) < 2 ^ 52 := by positivity
  have hcanonical := canonical_double a
  obtain ⟨m, e, hm, hu⟩ := positive_of_value_pos ha (hpos.trans_le hlarge)
  rw [hu] at hcanonical
  rw [value_of_positive hu] at hlarge ⊢
  have he : 0 ≤ e := by
    by_contra hneg
    have hpow : (2 : ℚ) ^ (e + 53) ≤ 2 ^ (52 : ℤ) := twoPow_le_twoPow (by omega)
    exact absurd hlarge (not_le.mpr (hcanonical.below.trans_le (by exact_mod_cast hpow)))
  obtain ⟨k, rfl⟩ := Int.eq_ofNat_of_zero_le he
  exact ⟨m * 2 ^ k, natCast_mul_twoPow m k⟩

/-- Doubles that are equal have one value. -/
theorem value_eq_of_beq (h : (a == b) = true) : value a = value b := by
  rcases (Float.beq_iff_ne_nan_and_eq.mp h).2.2 with rfl | ⟨rfl, rfl⟩ | ⟨rfl, rfl⟩
  · rfl
  · rfl
  · rfl

/-- A double that is not negative has digits behind the point only below `wholeFrom`. -/
theorem abs_lt_wholeFrom_iff (ha : a.isFinite = true) (hnonneg : 0 ≤ value a) :
    a.abs < wholeFrom ↔ value a < 2 ^ 52 := by
  obtain ⟨habs, hvalue⟩ := value_abs ha hnonneg
  rw [lt_iff_value habs (by decide), hvalue, value_wholeFrom]

/-- A value that is not negative is not below zero. -/
theorem not_lt_zero (ha : a.isFinite = true) (hnonneg : 0 ≤ value a) : ¬ a < 0.0 := by
  rw [lt_iff_value ha (by decide), value_zero]
  exact not_lt.mpr hnonneg

/-- A double that is not negative is rounded to the nearest whole number, a half upwards. -/
theorem value_round (ha : a.isFinite = true) (hnonneg : 0 ≤ value a) :
    (round a).isFinite = true ∧ value (round a) = ⌊value a + 1 / 2⌋₊ := by
  obtain ⟨habs, hvalue⟩ := value_abs ha hnonneg
  have hbelow := abs_lt_wholeFrom_iff ha hnonneg
  unfold round
  split
  · -- Here the whole part fits a word, and both it and the rest are exact.
    rename_i hsmall
    have hlt := hbelow.mp hsmall
    obtain ⟨hwhole, hfloor⟩ := value_wholePart habs (by rwa [hvalue]) (by rwa [hvalue])
    obtain ⟨hrest, hfraction⟩ := value_sub_wholePart habs (by rwa [hvalue]) (by rwa [hvalue])
    rw [hvalue] at hfloor hfraction
    simp only
    split
    · rename_i hequal
      have hself := value_eq_of_beq hequal
      rw [hvalue, hfloor] at hself
      refine ⟨ha, ?_⟩
      rw [← hself, floor_natCast_add_half]
    have hhalf : 0.5 ≤ a.abs - wholePart a.abs ↔ 1 / 2 ≤ value a - ⌊value a⌋₊ := by
      rw [le_iff_value (by decide) hrest, value_half, hfraction]
    rw [if_neg (not_lt_zero ha hnonneg), floor_add_half hnonneg]
    by_cases hup : 1 / 2 ≤ value a - ⌊value a⌋₊
    · rw [if_pos hup, if_pos (hhalf.mpr hup)]
      exact value_add_one hwhole hfloor ((Nat.floor_lt hnonneg).mpr (by exact_mod_cast hlt))
    · rw [if_neg hup, if_neg (mt hhalf.mp hup)]
      exact ⟨hwhole, hfloor⟩
  · -- There is nothing to round.
    rename_i hlarge
    obtain ⟨n, hn⟩ := exists_natCast_of_large ha (not_lt.mp (mt hbelow.mpr hlarge))
    refine ⟨ha, ?_⟩
    rw [hn, floor_natCast_add_half]

/-- The whole part of a double that is not negative is cut off exactly. -/
theorem value_floor (ha : a.isFinite = true) (hnonneg : 0 ≤ value a) :
    (floor a).isFinite = true ∧ value (floor a) = ⌊value a⌋₊ := by
  obtain ⟨habs, hvalue⟩ := value_abs ha hnonneg
  have hbelow := abs_lt_wholeFrom_iff ha hnonneg
  unfold floor
  split
  · rename_i hsmall
    have hlt := hbelow.mp hsmall
    obtain ⟨hwhole, hfloor⟩ := value_wholePart habs (by rwa [hvalue]) (by rwa [hvalue])
    rw [hvalue] at hfloor
    simp only
    split
    · rename_i hequal
      have hself := value_eq_of_beq hequal
      rw [hvalue, hfloor] at hself
      refine ⟨ha, ?_⟩
      rw [← hself, Nat.floor_natCast]
    · rw [if_neg (not_lt_zero ha hnonneg)]
      exact ⟨hwhole, hfloor⟩
  · rename_i hlarge
    obtain ⟨n, hn⟩ := exists_natCast_of_large ha (not_lt.mp (mt hbelow.mpr hlarge))
    refine ⟨ha, ?_⟩
    rw [hn, Nat.floor_natCast]

/-- As an index it is the whole part of the value. -/
theorem toNat_floor (ha : a.isFinite = true) (hnonneg : 0 ≤ value a) (hlt : value a < 2 ^ 64) :
    (floor a).toUInt64.toNat = ⌊value a⌋₊ := by
  obtain ⟨hfinite, hvalue⟩ := value_floor ha hnonneg
  have hle : (⌊value a⌋₊ : ℚ) ≤ value a := Nat.floor_le hnonneg
  rw [toNat_toUInt64 hfinite (hvalue ▸ Nat.cast_nonneg _) (hvalue ▸ hle.trans_lt hlt), hvalue,
    Nat.floor_natCast]

/-! ### Functions that follow the value -/

/-- On doubles that are not negative, `g` rounds what `G` makes of the value, and infinity
stays. -/
structure Follows (g : Float → Float) (G : ℚ → ℚ) : Prop where
  finite {a : Float} (ha : a.isFinite = true) (hnonneg : 0 ≤ value a) :
    IsRounded (G (value a)) (g a)
  infinite {a : Float} (ha : a.toModel.unpack = .infinity .positive) :
    (g a).toModel.unpack = .infinity .positive

variable {g : Float → Float} {G : ℚ → ℚ}

/-- What is not negative is kept so. -/
theorem Follows.nonneg (h : Follows g G) (ha : (0.0 : Float) ≤ a) : (0.0 : Float) ≤ g a := by
  rcases finite_or_infinite ha with ⟨hfinite, hnonneg⟩ | hinfinite
  · exact (h.finite hfinite hnonneg).nonneg
  · exact le_of_infinite (by decide) (h.infinite hinfinite)

/-- A function that follows a monotone one is monotone on what is not negative, in spite of
rounding. -/
theorem Follows.mono (h : Follows g G) (hG : Monotone G) (ha : (0.0 : Float) ≤ a) (hab : a ≤ b) :
    g a ≤ g b := by
  have hb : (0.0 : Float) ≤ b := LawfulComparison.le_trans ha hab
  rcases finite_or_infinite hb with ⟨hbfinite, hbnonneg⟩ | hinfinite
  · rcases finite_or_infinite ha with ⟨hafinite, hanonneg⟩ | hinfinite
    · exact (h.finite hafinite hanonneg).mono (h.finite hbfinite hbnonneg)
        (hG ((le_iff_value hafinite hbfinite).mp hab))
    · exact absurd hab (not_le_of_infinite hbfinite hinfinite)
  · -- Nothing is known of `g a` here but that it is a number, and infinity is above all of them.
    exact le_of_infinite (LawfulComparison.numbers_of_le (h.nonneg ha)).2 (h.infinite hinfinite)

/-- A product with a fixed factor. -/
theorem follows_mul (hc : c.isFinite = true) (hpos : 0 < value c) :
    Follows (· * c) (· * value c) where
  finite ha hnonneg := isRounded_mul ha hc hnonneg hpos.le
  infinite {a} ha := by
    obtain ⟨m, e, hm, hu⟩ := positive_of_value_pos hc hpos
    show unpack .binary64 (pack .binary64
      (UnpackedFloat.mul .binary64 a.toModel.unpack c.toModel.unpack)) = _
    rw [ha, hu]
    show unpack .binary64 (pack .binary64 (.infinity .positive)) = _
    rfl

/-- A quotient by a fixed divisor. -/
theorem follows_div (hc : c.isFinite = true) (hpos : 0 < value c) :
    Follows (· / c) (· / value c) where
  finite ha hnonneg := isRounded_div ha hc hnonneg hpos
  infinite {a} ha := by
    obtain ⟨m, e, hm, hu⟩ := positive_of_value_pos hc hpos
    show unpack .binary64 (pack .binary64
      (UnpackedFloat.div .binary64 a.toModel.unpack c.toModel.unpack)) = _
    rw [ha, hu]
    show unpack .binary64 (pack .binary64 (.infinity .positive)) = _
    rfl

/-- Rounding to a whole number. -/
theorem follows_round : Follows round (fun v => ⌊v + 1 / 2⌋₊) where
  finite ha hnonneg := by
    obtain ⟨hfinite, hvalue⟩ := value_round ha hnonneg
    rw [← hvalue]
    exact isRounded_value hfinite (by rw [hvalue]; exact Nat.cast_nonneg _)
  infinite {a} ha := by
    have habs : a.abs.toModel.unpack = .infinity .positive := by
      show unpack .binary64 (pack .binary64 a.toModel.unpack.abs) = _
      rw [ha]
      rfl
    have hlarge : ¬ a.abs < wholeFrom := fun hlt =>
      LawfulComparison.not_le_of_lt hlt (le_of_infinite (by decide) habs)
    rw [round, if_neg hlarge]
    exact ha

/-! ### Rounding to tenths -/

/-- The value of ten. -/
theorem value_ten : value 10.0 = 10 := by
  rw [value_of_positive (m := 5629499534213120) (e := -49) rfl]
  norm_num

/-- Multiplying by ten follows the exact product. -/
theorem follows_mul_ten : Follows (· * 10.0) (· * 10) :=
  value_ten ▸ follows_mul (by decide) (by rw [value_ten]; norm_num)

/-- Dividing by ten follows the exact quotient. -/
theorem follows_div_ten : Follows (· / 10.0) (· / 10) :=
  value_ten ▸ follows_div (by decide) (by rw [value_ten]; norm_num)

/-- Rounding to one decimal gives nothing negative. -/
theorem roundTenth_nonneg (ha : (0.0 : Float) ≤ a) : (0.0 : Float) ≤ Scalar.roundTenth a :=
  follows_div_ten.nonneg (follows_round.nonneg (follows_mul_ten.nonneg ha))

/-- Rounding to one decimal keeps the order. -/
theorem roundTenth_mono (ha : (0.0 : Float) ≤ a) (hab : a ≤ b) :
    Scalar.roundTenth a ≤ Scalar.roundTenth b := by
  have hscale : Monotone fun v : ℚ => v * 10 := fun v w h => by simpa using h
  have hround : Monotone fun v : ℚ => (⌊v + 1 / 2⌋₊ : ℚ) := fun v w h =>
    Nat.cast_le.mpr (Nat.floor_mono (by linarith))
  have hunscale : Monotone fun v : ℚ => v / 10 := fun v w h =>
    div_le_div_of_nonneg_right h (by norm_num)
  have htimes := follows_mul_ten.nonneg ha
  have hwhole := follows_round.nonneg htimes
  exact follows_div_ten.mono hunscale hwhole
    (follows_round.mono hround htimes (follows_mul_ten.mono hscale ha hab))

end FlightPlan.Binary64
