import FlightPlan.Proofs.Binary64.Nearest
import FlightPlan.Proofs.Binary64.Range

/-!
# `FlightPlan.Proofs.Binary64.Value`: the number a double stands for

`value` is the exact rational number of a finite double. The digits of a double end at the place
that its magnitude keeps (`canonical_unpack`), so a magnitude has one mantissa and one exponent
only, and this is what makes the value enough:

* finite doubles compare as their values do (`le_iff_value`, `lt_iff_value`);
* what is packed is unpacked again, if its exponent is not above the greatest one, `971`
  (`unpack_pack`), and is infinite otherwise (`unpack_pack_of_large`). The border between the two
  is the magnitude `2 ^ 1024` (`exponent_le_iff`).
-/

set_option autoImplicit false

namespace FlightPlan.Binary64

open Float.Model (UnpackedFloat Format)
open Float.Model.UnpackedFloat

variable {u v : UnpackedFloat} {x y : Float} {m n : ℕ} {e f : ℤ}

/-- The exact number of an unpacked double. What is not finite has none, and zero stands in. -/
def exact : UnpackedFloat → ℚ
  | .finite s mantissa exponent _ => s.apply mantissa * 2 ^ exponent
  | _ => 0

/-- The exact number of a finite double. -/
def value (x : Float) : ℚ :=
  exact x.toModel.unpack

/-- The number of a positive significand and exponent. -/
@[simp]
theorem exact_finite_positive (hm : 0 < m) : exact (.finite .positive m e hm) = m * 2 ^ e := by
  simp [exact, Sign.apply]

/-- The number of a negative significand and exponent. -/
@[simp]
theorem exact_finite_negative (hm : 0 < m) : exact (.finite .negative m e hm) = -(m * 2 ^ e) := by
  simp [exact, Sign.apply]

/-- Both zeros are zero. -/
@[simp]
theorem exact_zero (s : Sign) : exact (.zero s) = 0 := rfl

/-- The other sign stands for the negative number. -/
theorem exact_neg (u : UnpackedFloat) : exact u.neg = -exact u := by
  rcases u with _ | _ | _ | ⟨_ | _, m, e, hm⟩
  · exact neg_zero.symm
  · exact neg_zero.symm
  · exact neg_zero.symm
  · show exact (.finite .positive m e hm) = _
    simp
  · show exact (.finite .negative m e hm) = _
    simp

/-- A double that unpacks to a zero has the value zero. -/
theorem value_of_zero {s : Sign} (hx : x.toModel.unpack = .zero s) : value x = 0 := by
  rw [value, hx, exact_zero]

/-- A double that unpacks to a positive number has its value. -/
theorem value_of_positive {hm : 0 < m} (hx : x.toModel.unpack = .finite .positive m e hm) :
    value x = m * 2 ^ e := by
  rw [value, hx, exact_finite_positive]

/-- What is finite and not negative is a zero, of either sign, or positive. -/
theorem zero_or_positive (hu : u.isFinite = true) (hnonneg : 0 ≤ exact u) :
    (∃ s, u = .zero s) ∨ ∃ m e hm, u = .finite .positive m e hm := by
  rcases u with _ | _ | t | ⟨_ | _, m, e, hm⟩
  · contradiction
  · contradiction
  · exact .inl ⟨t, rfl⟩
  · rw [exact_finite_negative, neg_nonneg] at hnonneg
    exact absurd hnonneg (not_le.mpr (mul_twoPow_pos hm e))
  · exact .inr ⟨m, e, hm, rfl⟩

/-- A finite double above zero unpacks to a positive number. -/
theorem positive_of_value_pos (hx : x.isFinite = true) (hpos : 0 < value x) :
    ∃ m e hm, x.toModel.unpack = .finite .positive m e hm := by
  rcases zero_or_positive hx hpos.le with ⟨s, hu⟩ | hpositive
  · exact absurd (value_of_zero hu) hpos.ne'
  · exact hpositive

/-! ### Digits -/

/-- The digits end at the place that the magnitude keeps. -/
def Canonical : UnpackedFloat → Prop
  | .finite _ mantissa exponent _ => IsPlace (mantissa * 2 ^ exponent) exponent
  | _ => True

/-- The other sign is canonical too. -/
theorem Canonical.neg (h : Canonical u) : Canonical u.neg := by
  cases u <;> exact h

/-- The digits of a double do. -/
theorem canonical_unpack (b : BitVec 64) : Canonical (unpack .binary64 b) := by
  have hfits : Fits (unpack .binary64 b) := fits_unpack b
  have hbias := exponentBias_eq
  revert hfits
  simp only [unpack]
  split
  · split <;> exact fun _ => trivial
  split
  · split
    · exact fun _ => trivial
    · -- A subnormal double is one of the lowest place.
      rename_i hzero _
      intro hfits
      refine isPlace_mul_twoPow_iff.mpr ⟨hfits.1, hfits.2.1, .inl ?_⟩
      rw [hzero]
      decide
  · intro hfits
    refine isPlace_mul_twoPow_iff.mpr ⟨hfits.1, hfits.2.1, .inr ?_⟩
    rw [BitVec.toNat_append]
    exact Nat.left_le_or

/-- The exponent tells a magnitude in the range of doubles from one beyond. -/
theorem exponent_le_iff (h : IsPlace (m * 2 ^ e) e) :
    e ≤ 971 ↔ (m : ℚ) * 2 ^ e < 2 ^ 1024 := by
  constructor
  · intro hle
    have hpow : (2 : ℚ) ^ (e + 53) ≤ 2 ^ (1024 : ℤ) := twoPow_le_twoPow (by omega)
    exact_mod_cast h.below.trans_le hpow
  · intro hlt
    by_contra hlarge
    have hpow : (2 : ℚ) ^ (1024 : ℤ) ≤ 2 ^ (e + 52) := twoPow_le_twoPow (by omega)
    have hnormal := h.normal.resolve_left (by omega)
    exact absurd hlt (not_lt.mpr (by exact_mod_cast hpow.trans hnormal))

/-! ### Packing -/

/-- An infinity is what is left of a number beyond the range. -/
theorem unpack_pack_of_large {s : Sign} (hm : 0 < m) (he : 972 ≤ e) :
    unpack .binary64 (pack .binary64 (.finite s m e hm)) = .infinity s := by
  have hbiased : 2048 ≤ (e + 1023 + 52).toNat + 1 := by omega
  have hpack : pack .binary64 (.finite s m e hm) = packedInfinity .binary64 s := if_pos hbiased
  rw [hpack]
  cases s <;> rfl

/-- The leading one, which is not packed, and the digits behind it. -/
theorem toNat_one_append (hlow : 2 ^ 52 ≤ m) (hhigh : m < 2 ^ 53) :
    (1#1 ++ BitVec.ofNat 52 m).toNat = m := by
  have hdigits : 2 ^ 52 * 1 + m % 2 ^ 52 = 2 ^ 52 ||| m % 2 ^ 52 :=
    Nat.two_pow_add_eq_or_of_lt (Nat.mod_lt m (Nat.two_pow_pos 52)) 1
  rw [BitVec.toNat_append, BitVec.toNat_ofNat]
  show 2 ^ 52 ||| m % 2 ^ 52 = m
  rw [← hdigits]
  omega

/-- A normal double. Its leading one is not among its bits. -/
theorem unpack_normal {s : Sign} {field : BitVec 11} {mantissa : BitVec 52} (hm : 0 < m)
    (hmantissa : (1#1 ++ mantissa).toNat = m) (hfield : (field.toNat : ℤ) = e + 1075)
    (hleast : -1074 ≤ e) (hgreatest : e ≤ 971) :
    unpack .binary64 (packComponents .binary64 s field mantissa) = .finite s m e hm := by
  -- A field of ones alone, or of zeros alone, would stand for another kind of double.
  have hfinite : field ≠ -1#_ := by
    rintro rfl
    have hones : (-1#11).toNat = 2047 := rfl
    omega
  have hnormal : field ≠ 0#_ := by
    rintro rfl
    have hzero : (0#11).toNat = 0 := rfl
    omega
  have hexponent : (field.toNat : ℤ) - (1023 + 52) = e := by omega
  subst hmantissa hexponent
  simp only [unpack, unpackExponent_packComponents, unpackMantissa_packComponents,
    unpackSign_packComponents, Sign.ofBitVec_toBitVec, if_neg hfinite, if_neg hnormal]
  rfl

/-- A subnormal double. -/
theorem unpack_subnormal {s : Sign} {mantissa : BitVec 52} (hm : 0 < m)
    (hmantissa : mantissa.toNat = m) :
    unpack .binary64 (packComponents .binary64 s 0#11 mantissa) = .finite s m (-1074) hm := by
  subst hmantissa
  have hpositive : mantissa ≠ 0#52 := by
    rintro rfl
    exact absurd hm (by decide)
  have hfinite : (0#11) ≠ -1#11 := by decide
  simp only [unpack, unpackExponent_packComponents, unpackMantissa_packComponents,
    unpackSign_packComponents, Sign.ofBitVec_toBitVec, if_neg hfinite]
  rw [if_pos trivial, dif_neg hpositive]
  rfl

/-- What has its digits in place is a double, unless it is too large. -/
theorem unpack_pack (hcanonical : Canonical u) (hwithin : Within 971 u) :
    unpack .binary64 (pack .binary64 u) = u := by
  cases hwithin with
  | zero s => exact unpack_packedZero
  | @finite s m e hm he =>
      obtain ⟨hdigits, hleast, hnormal⟩ := isPlace_mul_twoPow_iff.mp hcanonical
      -- Packing tells three kinds apart: too large, with all 53 digits, and with fewer.
      simp only [pack]
      split
      · rename_i hbiased
        have hoverflow : 2048 ≤ (e + 1023 + 52).toNat + 1 := hbiased
        omega
      split
      · rename_i hlog
        have hlow : 2 ^ 52 ≤ m := by
          have hlast : m.log2 = 52 := Nat.succ_injective hlog
          rw [← hlast]
          exact Nat.log2_self_le hm.ne'
        have hfield : (BitVec.ofNat 11 (e + 1023 + 52).toNat).toNat = (e + 1023 + 52).toNat :=
          Nat.mod_eq_of_lt (by omega)
        have hunpack : unpack .binary64 (packComponents .binary64 s
            (BitVec.ofNat 11 (e + 1023 + 52).toNat) (BitVec.ofNat 52 m)) = .finite s m e hm :=
          unpack_normal hm (toNat_one_append hlow hdigits) (by omega) hleast he
        exact hunpack
      · rename_i hlog
        -- Fewer digits than that are left only at the lowest place.
        have hlow : m < 2 ^ 52 := by
          by_contra hge
          refine hlog (congrArg Nat.succ (le_antisymm (log2_le_of_lt_pow hdigits) ?_))
          exact (Nat.le_log2 hm.ne').mpr (not_lt.mp hge)
        obtain rfl : e = -1074 := hnormal.resolve_right (not_le.mpr hlow)
        exact unpack_subnormal hm (Nat.mod_eq_of_lt hlow)

/-- The double that is packed has the value that was packed. -/
theorem value_pack (hcanonical : Canonical u) (hwithin : Within 971 u) :
    (Float.ofModel (.pack u)).isFinite = true ∧ value (.ofModel (.pack u)) = exact u := by
  have hunpack : (Float.ofModel (.pack u)).toModel.unpack = u := unpack_pack hcanonical hwithin
  refine ⟨?_, congrArg exact hunpack⟩
  show (Float.ofModel (.pack u)).toModel.unpack.isFinite = true
  rw [hunpack]
  cases hwithin <;> rfl

/-! ### Comparison -/

/-- Among magnitudes with their digits in place the exponent decides first. -/
theorem place_le_iff (hm : IsPlace (m * 2 ^ e) e) (hn : IsPlace (n * 2 ^ f) f) :
    (toLex (e, (m : ℤ)) ≤ toLex (f, (n : ℤ))) ↔ (m : ℚ) * 2 ^ e ≤ n * 2 ^ f := by
  rw [Prod.Lex.toLex_le_toLex]
  show e < f ∨ e = f ∧ (m : ℤ) ≤ n ↔ _
  constructor
  · rintro (hlt | ⟨rfl, hle⟩)
    · by_contra hgt
      exact absurd (hn.mono hm (not_le.mp hgt).le) (not_le.mpr hlt)
    · exact mul_le_mul_of_nonneg_right (by exact_mod_cast hle) (twoPow_pos e).le
  · intro hle
    rcases (hm.mono hn hle).eq_or_lt with rfl | hlt
    · refine .inr ⟨rfl, ?_⟩
      exact_mod_cast le_of_mul_le_mul_right hle (twoPow_pos e)
    · exact .inl hlt

/-- Ranks of numbers of one kind are told apart by what is behind the kind. -/
theorem rank_le_of_kind {k : ℤ} {p q : ℤ ×ₗ ℤ} :
    (toLex (k, p) : Rank) ≤ toLex (k, q) ↔ p ≤ q := by
  simp [Prod.Lex.toLex_le_toLex]

/-- A number of a lesser kind is of a lesser rank, whatever is behind the kind. -/
theorem rank_le_of_kind_lt {k l : ℤ} {p q : ℤ ×ₗ ℤ} (h : k < l) :
    (toLex (k, p) : Rank) ≤ toLex (l, q) :=
  Prod.Lex.toLex_le_toLex.mpr (.inl h)

/-- A number of a greater kind is not of a lesser rank. -/
theorem not_rank_le_of_kind_lt {k l : ℤ} {p q : ℤ ×ₗ ℤ} (h : k < l) :
    ¬ (toLex (l, q) : Rank) ≤ toLex (k, p) :=
  not_le.mpr (Prod.Lex.toLex_lt_toLex.mpr (.inl h))

/-- Finite numbers are ranked by their values. -/
theorem rank_le_iff {a b : Rank} (hu : Canonical u) (hv : Canonical v)
    (hufinite : u.isFinite = true) (hvfinite : v.isFinite = true) (ha : rank? u = some a)
    (hb : rank? v = some b) : a ≤ b ↔ exact u ≤ exact v := by
  -- A mantissa is never zero, so the numbers of one kind are on one side of zero.
  have hpos {m : ℕ} {e : ℤ} (hm : 0 < m) : (0 : ℚ) < m * 2 ^ e := mul_twoPow_pos hm e
  rcases u with _ | _ | s | ⟨_ | _, m, e, hm⟩ <;> rcases v with _ | _ | t | ⟨_ | _, n, f, hn⟩ <;>
    try contradiction
  all_goals
    obtain rfl := Option.some.inj ha
    obtain rfl := Option.some.inj hb
    simp only [exact_zero, exact_finite_positive, exact_finite_negative]
  · exact iff_of_true le_rfl le_rfl
  · exact iff_of_false (not_rank_le_of_kind_lt (by decide))
      (not_le.mpr (neg_lt_zero.mpr (hpos hn)))
  · exact iff_of_true (rank_le_of_kind_lt (by decide)) (hpos hn).le
  · exact iff_of_true (rank_le_of_kind_lt (by decide)) (neg_nonpos.mpr (hpos hm).le)
  · rw [rank_le_of_kind, neg_le_neg_iff, ← place_le_iff hv hu]
    simp only [Prod.Lex.toLex_le_toLex]
    omega
  · exact iff_of_true (rank_le_of_kind_lt (by decide))
      ((neg_nonpos.mpr (hpos hm).le).trans (hpos hn).le)
  · exact iff_of_false (not_rank_le_of_kind_lt (by decide)) (not_le.mpr (hpos hm))
  · exact iff_of_false (not_rank_le_of_kind_lt (by decide))
      (not_le.mpr ((neg_lt_zero.mpr (hpos hn)).trans (hpos hm)))
  · rw [rank_le_of_kind, place_le_iff hu hv]

/-- What a double unpacks to is canonical. -/
theorem canonical_double (x : Float) : Canonical x.toModel.unpack :=
  canonical_unpack _

/-- Finite doubles compare as their values do. -/
theorem le_iff_value (hx : x.isFinite = true) (hy : y.isFinite = true) :
    x ≤ y ↔ value x ≤ value y := by
  obtain ⟨a, ha⟩ := isNaN_eq_false_iff_rank.mp (isNaN_of_isFinite hx)
  obtain ⟨b, hb⟩ := isNaN_eq_false_iff_rank.mp (isNaN_of_isFinite hy)
  have hrank : a ≤ b ↔ value x ≤ value y :=
    rank_le_iff (canonical_double x) (canonical_double y) hx hy ha hb
  rw [le_iff_rank, ha, hb]
  simpa using hrank

/-- Finite doubles compare as their values do. -/
theorem lt_iff_value (hx : x.isFinite = true) (hy : y.isFinite = true) :
    x < y ↔ value x < value y := by
  rw [LawfulComparison.lt_iff, le_iff_value hx hy, le_iff_value hy hx]
  exact lt_iff_le_not_ge.symm

/-- The value of zero. -/
theorem value_zero : value 0.0 = 0 :=
  value_of_zero (s := .positive) rfl

/-- A finite double is not negative when its value is not. -/
theorem nonneg_iff_value (hx : x.isFinite = true) : (0.0 : Float) ≤ x ↔ 0 ≤ value x := by
  rw [le_iff_value (by decide) hx, value_zero]

/-- A finite double is positive when its value is. -/
theorem pos_iff_value (hx : x.isFinite = true) : (0.0 : Float) < x ↔ 0 < value x := by
  rw [lt_iff_value (by decide) hx, value_zero]

/-- The greatest double is below `2 ^ 1024`. -/
theorem value_lt (hx : x.isFinite = true) : value x < 2 ^ 1024 := by
  have hrange : (0 : ℚ) < 2 ^ 1024 := by positivity
  rcases le_or_gt (value x) 0 with hle | hpos
  · exact hle.trans_lt hrange
  obtain ⟨m, e, hm, hu⟩ := positive_of_value_pos hx hpos
  have hcanonical := canonical_double x
  have hwithin := isFinite_iff_bounded.mp hx
  rw [hu] at hcanonical
  rw [Bounded, hu, within_finite_iff] at hwithin
  rw [value_of_positive hu]
  exact (exponent_le_iff hcanonical).mp hwithin

/-! ### Infinity -/

/-- Every number is at most infinity. -/
theorem le_of_infinite (hx : x.isNaN = false) (hy : y.toModel.unpack = .infinity .positive) :
    x ≤ y := by
  obtain ⟨a, ha⟩ := isNaN_eq_false_iff_rank.mp hx
  refine le_iff_rank.mpr ⟨a, _, ha, by rw [rankOf?, hy]; rfl, ?_⟩
  rw [rankOf?] at ha
  -- Infinity is the only one of its kind, so the kind of the other number decides.
  generalize x.toModel.unpack = u at ha
  rcases u with (_ | _) | _ | _ | ⟨_ | _, m, e, hm⟩ <;> cases ha
  · exact rank_le_of_kind_lt (by decide)
  · exact le_rfl
  · exact rank_le_of_kind_lt (by decide)
  · exact rank_le_of_kind_lt (by decide)
  · exact rank_le_of_kind_lt (by decide)

/-- Infinity is not below a finite double. -/
theorem not_le_of_infinite (hx : x.isFinite = true) (hy : y.toModel.unpack = .infinity .positive) :
    ¬ y ≤ x := by
  intro hle
  obtain ⟨b, a, hb, ha, hrank⟩ := le_iff_rank.mp hle
  have hfinite : x.toModel.unpack.isFinite = true := hx
  rw [rankOf?, hy] at hb
  obtain rfl := Option.some.inj hb
  rw [rankOf?] at ha
  generalize x.toModel.unpack = u at ha hfinite
  rcases u with (_ | _) | _ | _ | ⟨_ | _, m, e, hm⟩ <;> cases ha
  · contradiction
  · contradiction
  · exact not_rank_le_of_kind_lt (by decide) hrank
  · exact not_rank_le_of_kind_lt (by decide) hrank
  · exact not_rank_le_of_kind_lt (by decide) hrank

/-- Nothing else is at least zero and not finite. -/
theorem finite_or_infinite (hx : (0.0 : Float) ≤ x) :
    x.isFinite = true ∧ 0 ≤ value x ∨ x.toModel.unpack = .infinity .positive := by
  by_cases hfinite : x.isFinite = true
  · exact .inl ⟨hfinite, (nonneg_iff_value hfinite).mp hx⟩
  refine .inr ?_
  obtain ⟨a, b, ha, hb, hrank⟩ := le_iff_rank.mp hx
  have hnot : ¬ x.toModel.unpack.isFinite = true := hfinite
  obtain rfl : a = toLex (0, toLex (0, 0)) := (Option.some.inj ha).symm
  rw [rankOf?] at hb
  generalize x.toModel.unpack = u at hb hnot ⊢
  rcases u with (_ | _) | _ | _ | _
  · cases hb
    exact absurd hrank (not_rank_le_of_kind_lt (by decide))
  · rfl
  · contradiction
  · exact absurd rfl hnot
  · exact absurd rfl hnot

end FlightPlan.Binary64
