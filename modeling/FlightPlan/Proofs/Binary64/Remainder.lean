import FlightPlan.Proofs.Binary64.Whole
import FlightPlan.Proofs.Heading

/-!
# `FlightPlan.Proofs.Binary64.Remainder`: the remainder loses no digit

The remainder of two doubles is computed from their significands and exponents. These are the
mantissa and the exponent of the unpacked double (`unpack_eq_signed`), so the value is known at
every step: making a double of a significand and an exponent rounds nothing (`value_ofParts`), and
what is left of one magnitude by another is less than the other (`Parts.value_rest_lt`).

* `value_remainder_lt`: the remainder is nearer to zero than the divisor, and on the side of the
  dividend.
* `remainder_eq_self`: a dividend nearer to zero than the divisor is its own remainder, down to the
  sign of a zero. For this the sign bit is kept beside the value, which tells two finite doubles
  apart together with it (`eq_of_value`).
-/

set_option autoImplicit false

namespace FlightPlan.Binary64

open Float.Model (UnpackedFloat Format)
open Float.Model.UnpackedFloat

variable {a b x divisor : Float} {p q : Parts} {e : ℤ}

/-! ### Magnitudes -/

/-- The number that a significand and an exponent stand for. -/
def Parts.value (p : Parts) : ℚ :=
  p.significand * 2 ^ p.exponent

/-- The unpacked double of a sign and a magnitude. -/
def signed (s : Sign) (p : Parts) : UnpackedFloat :=
  if h : p.significand = 0 then .zero s
  else .finite s p.significand p.exponent (Nat.pos_of_ne_zero h)

/-- With a positive sign a magnitude stands for its value. -/
theorem exact_signed_positive (p : Parts) : exact (signed .positive p) = p.value := by
  rw [signed]
  split
  · rename_i h
    rw [exact_zero, Parts.value, h, Nat.cast_zero, zero_mul]
  · rw [exact_finite_positive, Parts.value]

/-- With a negative sign a magnitude stands for the negative of its value. -/
theorem exact_signed_negative (p : Parts) : exact (signed .negative p) = -p.value := by
  rw [signed]
  split
  · rename_i h
    rw [exact_zero, Parts.value, h, Nat.cast_zero, zero_mul, neg_zero]
  · rw [exact_finite_negative, Parts.value]

/-- The magnitude that 64 bits stand for, and their sign. -/
def partsOfBits (bits : ℕ) : Parts :=
  if bits / Nat.pow 2 52 % Nat.pow 2 11 = 0 then ⟨bits % Nat.pow 2 52, -1074⟩
  else ⟨Nat.pow 2 52 + bits % Nat.pow 2 52, (bits / Nat.pow 2 52 % Nat.pow 2 11 : ℕ) - 1075⟩

/-- The sign that 64 bits stand for. -/
def signOfBits (bits : ℕ) : Sign :=
  if bits / 2 ^ 63 = 1 then .negative else .positive

/-- The parts of a double are those of its bits. -/
theorem parts_eq (x : Float) : parts x = partsOfBits x.toBits.toNat := rfl

/-- A double is negative when its highest bit is set, a zero or what is not a number too. -/
theorem isNegative_iff : isNegative x = true ↔ x.toBits.toNat / 2 ^ 63 = 1 := by
  rw [isNegative, beq_iff_eq, ← UInt64.toNat_inj, UInt64.toNat_shiftRight]
  show x.toBits.toNat >>> 63 = 1 ↔ x.toBits.toNat / 2 ^ 63 = 1
  rw [Nat.shiftRight_eq_div_pow]

/-- The field of the exponent, cut out of the bits. -/
theorem toNat_unpackExponent (b : BitVec 64) :
    (@unpackExponent .binary64 b).toNat = b.toNat / Nat.pow 2 52 % Nat.pow 2 11 := by
  show ((b.extractLsb 62 52).cast _).toNat = _
  rw [BitVec.toNat_cast, BitVec.extractLsb, BitVec.extractLsb'_toNat, Nat.shiftRight_eq_div_pow]

/-- The field of the mantissa, cut out of the bits. -/
theorem toNat_unpackMantissa (b : BitVec 64) :
    (@unpackMantissa .binary64 b).toNat = b.toNat % Nat.pow 2 52 := by
  show ((b.extractLsb 51 0).cast _).toNat = _
  rw [BitVec.toNat_cast, BitVec.extractLsb, BitVec.extractLsb'_toNat]
  rfl

/-- The sign, cut out of the bits. -/
theorem ofBitVec_unpackSign (b : BitVec 64) :
    Sign.ofBitVec (@unpackSign .binary64 b) = signOfBits b.toNat := by
  have hbit : (@unpackSign .binary64 b).toNat = b.toNat / 2 ^ 63 := by
    have hlt : b.toNat < 2 ^ 64 := b.isLt
    show ((b.extractLsb 63 63).cast _).toNat = _
    rw [BitVec.toNat_cast, BitVec.extractLsb, BitVec.extractLsb'_toNat, Nat.shiftRight_eq_div_pow]
    exact Nat.mod_eq_of_lt (by omega)
  rw [Sign.ofBitVec, signOfBits, ← hbit]
  generalize @unpackSign .binary64 b = bit
  have hlt : bit.toNat < 2 := bit.isLt
  by_cases hzero : bit = 0#1
  · have hnat : bit.toNat = 0 := by rw [hzero]; rfl
    rw [if_pos hzero, hnat, if_neg (by decide)]
  · have hnat : bit.toNat ≠ 0 := fun h => hzero (BitVec.eq_of_toNat_eq h)
    rw [if_neg hzero, if_pos (by omega)]

/-- Unpacking reads off the sign and the magnitude. -/
theorem unpack_eq_signed {b : BitVec 64}
    (hfinite : b.toNat / Nat.pow 2 52 % Nat.pow 2 11 ≠ 2047) :
    unpack .binary64 b = signed (signOfBits b.toNat) (partsOfBits b.toNat) := by
  have hexponent := toNat_unpackExponent b
  have hmantissa := toNat_unpackMantissa b
  have hfield : @unpackExponent .binary64 b ≠ -1#_ := fun h => by
    rw [← hexponent, h] at hfinite
    exact hfinite rfl
  simp only [unpack, if_neg hfield, ofBitVec_unpackSign]
  rw [partsOfBits, ← hexponent, ← hmantissa]
  -- Without an exponent field there is no leading one, and the digits alone may be zero.
  by_cases hzero : @unpackExponent .binary64 b = 0#_
  · have hnat : (@unpackExponent .binary64 b).toNat = 0 := by rw [hzero]; rfl
    rw [if_pos hzero, if_pos hnat, signed]
    split
    · rename_i hdigits
      have hnone : (@unpackMantissa .binary64 b).toNat = 0 := by rw [hdigits]; rfl
      rw [dif_pos hnone]
    · rename_i hdigits
      have hsome : (@unpackMantissa .binary64 b).toNat ≠ 0 := fun h =>
        hdigits (BitVec.eq_of_toNat_eq h)
      rw [dif_neg hsome]
      refine (UnpackedFloat.finite.injEq ..).mpr ⟨rfl, rfl, ?_⟩
      rw [hnat]
      rfl
  · have hnat : (@unpackExponent .binary64 b).toNat ≠ 0 := fun h =>
      hzero (BitVec.eq_of_toNat_eq h)
    have hpositive : Nat.pow 2 52 + (@unpackMantissa .binary64 b).toNat ≠ 0 :=
      (Nat.add_pos_left (Nat.two_pow_pos 52) _).ne'
    rw [if_neg hzero, if_neg hnat, signed, dif_neg hpositive]
    refine (UnpackedFloat.finite.injEq ..).mpr ⟨rfl, ?_, rfl⟩
    have hleading := Nat.two_pow_add_eq_or_of_lt (@unpackMantissa .binary64 b).isLt 1
    rw [mul_one] at hleading
    rw [BitVec.toNat_append]
    exact hleading.symm

/-- What is finite has no exponent field full of ones. -/
theorem field_ne_of_isFinite {b : BitVec 64} (h : (unpack .binary64 b).isFinite = true) :
    b.toNat / Nat.pow 2 52 % Nat.pow 2 11 ≠ 2047 := by
  intro hones
  rw [← toNat_unpackExponent] at hones
  have hfield : @unpackExponent .binary64 b = -1#_ := BitVec.eq_of_toNat_eq hones
  simp only [unpack, if_pos hfield] at h
  split at h <;> contradiction

/-- A finite double is its sign and its parts. -/
theorem unpack_eq_parts (ha : a.isFinite = true) :
    a.toModel.unpack = signed (if isNegative a then .negative else .positive) (parts a) := by
  have hsign : signOfBits a.toBits.toNat = if isNegative a then .negative else .positive := by
    rw [signOfBits]
    simp only [isNegative_iff]
  rw [← hsign, parts_eq]
  exact unpack_eq_signed (field_ne_of_isFinite ha)

/-- So the parts have the value of a finite double. -/
theorem value_eq_parts (ha : a.isFinite = true) :
    value a = if isNegative a then -(parts a).value else (parts a).value := by
  rw [value, unpack_eq_parts ha]
  split
  · exact exact_signed_negative _
  · exact exact_signed_positive _

/-! ### Doubles of magnitudes -/

/-- Bits below the sign stand for the value of their parts, unless the exponent is the
greatest. -/
theorem value_ofBits {w : UInt64} (hsign : w.toNat < 2 ^ 63)
    (hfinite : w.toNat / Nat.pow 2 52 % Nat.pow 2 11 ≠ 2047) :
    (Float.ofBits w).isFinite = true ∧ value (Float.ofBits w) = (partsOfBits w.toNat).value := by
  have hpositive : signOfBits w.toNat = .positive := by
    rw [signOfBits, if_neg (by omega)]
  have hunpack := unpack_eq_signed (b := w.toBitVec) hfinite
  rw [UInt64.toNat_toBitVec, hpositive] at hunpack
  have hwithin : Within 971 (unpack .binary64 w.toBitVec) := by
    refine (isFinite_iff_within (fits_unpack _)).mp ?_
    rw [hunpack, signed]
    split <;> rfl
  have hvalue := value_pack (canonical_unpack w.toBitVec) hwithin
  rw [← exact_signed_positive, ← hunpack]
  exact hvalue

/-- One bit of the mantissa is a power of two below the normal doubles. -/
theorem value_ofBits_shift {k : ℕ} (hk : k < 52) :
    (Float.ofBits (1 <<< k.toUInt64)).isFinite = true
      ∧ value (Float.ofBits (1 <<< k.toUInt64)) = 2 ^ (-1074 + k : ℤ) := by
  have hword : k.toUInt64.toNat = k := UInt64.toNat_ofNat_of_lt (hk.trans (by decide))
  have hpow : Nat.pow 2 52 = 4503599627370496 := rfl
  have hfields : Nat.pow 2 11 = 2048 := rfl
  have hlt : 2 ^ k < 4503599627370496 := Nat.pow_lt_pow_right (n := 52) one_lt_two hk
  have hbits : ((1 : UInt64) <<< k.toUInt64).toNat = 2 ^ k := by
    rw [UInt64.toNat_shiftLeft, hword, Nat.mod_eq_of_lt (a := k) (by omega), Nat.shiftLeft_eq]
    show 1 * 2 ^ k % 2 ^ 64 = _
    omega
  have hfield : ((1 : UInt64) <<< k.toUInt64).toNat / Nat.pow 2 52 % Nat.pow 2 11 = 0 := by
    rw [hbits, hpow, hfields]
    omega
  obtain ⟨hfinite, hvalue⟩ := value_ofBits (w := 1 <<< k.toUInt64) (by omega) (by omega)
  refine ⟨hfinite, hvalue.trans ?_⟩
  rw [partsOfBits, if_pos hfield, Parts.value, hbits, hpow, Nat.mod_eq_of_lt hlt, Nat.cast_pow,
    Nat.cast_ofNat, ← twoPow_add_natCast]

/-- An exponent field alone is a power of two, because the leading one stands in front of it. -/
theorem value_ofBits_field {k : ℕ} (hpos : 0 < k) (hk : k ≤ 1023) :
    (Float.ofBits (k.toUInt64 <<< 52)).isFinite = true
      ∧ value (Float.ofBits (k.toUInt64 <<< 52)) = 2 ^ (k - 1023 : ℤ) := by
  have hword : k.toUInt64.toNat = k := UInt64.toNat_ofNat_of_lt (hk.trans_lt (by decide))
  have hpow : Nat.pow 2 52 = 4503599627370496 := rfl
  have hfields : Nat.pow 2 11 = 2048 := rfl
  have hbits : (k.toUInt64 <<< 52).toNat = k * 4503599627370496 := by
    rw [UInt64.toNat_shiftLeft, hword, Nat.shiftLeft_eq]
    show k * 4503599627370496 % 2 ^ 64 = _
    exact Nat.mod_eq_of_lt (by omega)
  have hfield : (k.toUInt64 <<< 52).toNat / Nat.pow 2 52 % Nat.pow 2 11 = k := by
    rw [hbits, hpow, hfields]
    omega
  obtain ⟨hfinite, hvalue⟩ := value_ofBits (w := k.toUInt64 <<< 52) (by omega) (by omega)
  refine ⟨hfinite, hvalue.trans ?_⟩
  have hdigits : k * 4503599627370496 % 4503599627370496 = 0 := Nat.mul_mod_left ..
  have hexponent : (k : ℤ) - 1075 + (52 : ℕ) = k - 1023 := by omega
  have hshift := twoPow_add_natCast ((k : ℤ) - 1075) 52
  rw [hexponent] at hshift
  rw [partsOfBits, hfield, if_neg hpos.ne', Parts.value, hbits, hpow, hdigits, hshift]
  norm_num

/-- A power of two that is not above one. -/
theorem value_twoPow (hleast : -1074 ≤ e) (hgreatest : e ≤ 0) :
    (twoPow e).isFinite = true ∧ value (twoPow e) = 2 ^ e := by
  unfold twoPow
  split
  · have hvalue := value_ofBits_shift (k := (e + 1074).toNat) (by omega)
    have hexponent : -1074 + ((e + 1074).toNat : ℤ) = e := by omega
    rwa [hexponent] at hvalue
  · have hvalue := value_ofBits_field (k := (e + 1023).toNat) (by omega) (by omega)
    have hexponent : ((e + 1023).toNat : ℤ) - 1023 = e := by omega
    rwa [hexponent] at hvalue

/-- A whole number with the digits of a double. -/
theorem value_ofNat {n : ℕ} (hn : n < 2 ^ 53) :
    (Float.ofNat n).isFinite = true ∧ value (Float.ofNat n) = n := by
  obtain ⟨hfinite, hvalue⟩ := value_toFloat hn
  have hone : value (Float.ofBits 0x3FF0000000000000) = 1 := value_one
  have hrounded := isRounded_mul (b := Float.ofBits 0x3FF0000000000000) hfinite (by decide)
    (by rw [hvalue]; exact Nat.cast_nonneg _) (by rw [hone]; exact zero_le_one)
  rw [hone, mul_one, hvalue] at hrounded
  rw [ofNat_of_lt hn]
  exact hrounded.of_natCast hn

/-- A magnitude with the digits of a double, in units that are not above one, is a double. -/
theorem value_ofParts (hdigits : p.significand < 2 ^ 53) (hleast : -1074 ≤ p.exponent)
    (hgreatest : p.exponent ≤ 0) :
    (ofParts p).isFinite = true ∧ value (ofParts p) = p.value := by
  obtain ⟨hcount, hsignificand⟩ := value_ofNat hdigits
  obtain ⟨hunit, hpower⟩ := value_twoPow hleast hgreatest
  have hrounded := isRounded_mul hcount hunit (by rw [hsignificand]; exact Nat.cast_nonneg _)
    (by rw [hpower]; exact (twoPow_pos _).le)
  rw [hsignificand, hpower] at hrounded
  refine hrounded.of_exact hdigits hleast ?_
  have hlow : (2 : ℚ) ^ p.exponent ≤ 2 ^ (0 : ℤ) := twoPow_le_twoPow hgreatest
  have hlarge : (2 : ℚ) ^ 53 < 2 ^ 1024 := pow_lt_pow_right₀ one_lt_two (by decide)
  have hsmall : (p.significand : ℚ) < 2 ^ 53 := by exact_mod_cast hdigits
  rw [zpow_zero] at hlow
  have hcount : (0 : ℚ) ≤ p.significand := Nat.cast_nonneg _
  have hproduct := mul_le_mul_of_nonneg_left hlow hcount
  rw [mul_one] at hproduct
  exact hproduct.trans_lt (hsmall.trans hlarge)

/-! ### Values and signs -/

/-- The sign of an unpacked double. -/
def signOf : UnpackedFloat → Sign
  | .infinity s => s
  | .notANumber => .positive
  | .zero s => s
  | .finite s _ _ _ => s

/-- A magnitude with its digits in place has them in one way. -/
theorem place_inj {m n : ℕ} {e f : ℤ} (hm : IsPlace (m * 2 ^ e) e) (hn : IsPlace (n * 2 ^ f) f)
    (h : (m : ℚ) * 2 ^ e = n * 2 ^ f) : m = n ∧ e = f := by
  obtain rfl : e = f := le_antisymm (hm.mono hn h.le) (hn.mono hm h.ge)
  exact ⟨by exact_mod_cast mul_right_cancel₀ (twoPow_pos e).ne' h, rfl⟩

/-- With a significand above zero a number is not zero. -/
theorem exact_finite_ne_zero {m : ℕ} (s : Sign) (hm : 0 < m) :
    exact (.finite s m e hm) ≠ 0 := by
  cases s with
  | positive =>
      rw [exact_finite_positive]
      exact (mul_twoPow_pos hm e).ne'
  | negative =>
      rw [exact_finite_negative, neg_ne_zero]
      exact (mul_twoPow_pos hm e).ne'

/-- A finite number is known by its value, and a zero by its sign. -/
theorem eq_of_exact {u v : UnpackedFloat} (hu : Canonical u) (hv : Canonical v)
    (hufinite : u.isFinite = true) (hvfinite : v.isFinite = true) (hexact : exact u = exact v)
    (hsign : signOf u = signOf v) : u = v := by
  rcases u with _ | _ | s | ⟨s, m, e, hm⟩
  · contradiction
  · contradiction
  · rcases v with _ | _ | t | ⟨t, n, f, hn⟩
    · contradiction
    · contradiction
    · exact congrArg UnpackedFloat.zero hsign
    · exact absurd hexact.symm (exact_finite_ne_zero t hn)
  · rcases v with _ | _ | t | ⟨t, n, f, hn⟩
    · contradiction
    · contradiction
    · exact absurd hexact (exact_finite_ne_zero s hm)
    · -- With one sign the magnitudes are equal, and each has its digits in one place only.
      obtain rfl : s = t := hsign
      have hmagnitude : (m : ℚ) * 2 ^ e = n * 2 ^ f := by
        cases s with
        | positive => rwa [exact_finite_positive, exact_finite_positive] at hexact
        | negative => rwa [exact_finite_negative, exact_finite_negative, neg_inj] at hexact
      obtain ⟨rfl, rfl⟩ := place_inj hu hv hmagnitude
      rfl

/-- Each number is packed in one way only. -/
theorem eq_of_unpack (h : a.toModel.unpack = b.toModel.unpack) : a = b := by
  have hbits := (unpack_inj_of_valid a.toModel.valid b.toModel.valid).mp h
  exact Float.toBits_inj.mp (UInt64.toBitVec_inj.mp hbits)

/-- Finite doubles of the same value and sign are the same. Only zeros need the sign. -/
theorem eq_of_value (ha : a.isFinite = true) (hb : b.isFinite = true) (hvalue : value a = value b)
    (hsign : signOf a.toModel.unpack = signOf b.toModel.unpack) : a = b :=
  eq_of_unpack (eq_of_exact (canonical_double a) (canonical_double b) ha hb hvalue hsign)

/-- Among the numbers that are not negative one is not finite. -/
theorem isFinite_of_ne_infinity (ha : (0.0 : Float) ≤ a) (hne : a ≠ 1.0 / 0.0) :
    a.isFinite = true := by
  rcases finite_or_infinite ha with ⟨hfinite, -⟩ | hinfinite
  · exact hfinite
  · exact absurd (eq_of_unpack hinfinite) hne

/-- The sign of a finite double is the one that its highest bit tells. -/
theorem signOf_eq_isNegative (ha : a.isFinite = true) :
    signOf a.toModel.unpack = if isNegative a then .negative else .positive := by
  rw [unpack_eq_parts ha, signed]
  split <;> rfl

/-- Above zero the sign is positive. -/
theorem signOf_of_pos (ha : a.isFinite = true) (hpos : 0 < value a) :
    signOf a.toModel.unpack = .positive := by
  obtain ⟨m, e, hm, hu⟩ := positive_of_value_pos ha hpos
  rw [hu]
  rfl

/-- Magnitudes have no sign, the zero included. -/
theorem signOf_ofParts (hdigits : p.significand < 2 ^ 53) (hleast : -1074 ≤ p.exponent)
    (hgreatest : p.exponent ≤ 0) : signOf (ofParts p).toModel.unpack = .positive := by
  obtain ⟨hfinite, hvalue⟩ := value_ofParts hdigits hleast hgreatest
  rcases Nat.eq_zero_or_pos p.significand with hzero | hpos
  · obtain ⟨hunit, hpower⟩ := value_twoPow hleast hgreatest
    have hunpack : (Float.ofNat 0).toModel.unpack = .zero .positive := rfl
    obtain ⟨m, e, hm, hu⟩ := positive_of_value_pos hunit (hpower ▸ twoPow_pos _)
    -- A zero times a positive number.
    rw [ofParts, hzero]
    show signOf (unpack .binary64 (pack .binary64 (UnpackedFloat.mul .binary64
      (Float.ofNat 0).toModel.unpack (twoPow p.exponent).toModel.unpack))) = _
    rw [hunpack, hu]
    show signOf (unpack .binary64 (pack .binary64 (.zero .positive))) = _
    rfl
  · refine signOf_of_pos hfinite ?_
    rw [hvalue]
    exact mul_twoPow_pos hpos _

/-- The negative of a finite double has the negative value and the other sign. -/
theorem value_neg (ha : a.isFinite = true) :
    (-a).isFinite = true ∧ value (-a) = -value a
      ∧ signOf (-a).toModel.unpack = -signOf a.toModel.unpack := by
  have hwithin : Within 971 a.toModel.unpack.neg := by
    have h := isFinite_iff_bounded.mp ha
    rw [Bounded] at h
    generalize a.toModel.unpack = u at h ⊢
    cases h with
    | zero s => exact .zero _
    | finite he => exact .finite he
  have hunpack : (-a).toModel.unpack = a.toModel.unpack.neg :=
    unpack_pack (canonical_double a).neg hwithin
  obtain ⟨hfinite, hvalue⟩ := value_pack (canonical_double a).neg hwithin
  refine ⟨hfinite, hvalue.trans (exact_neg _), ?_⟩
  have hu : a.toModel.unpack.isFinite = true := ha
  rw [hunpack]
  generalize a.toModel.unpack = u at hu ⊢
  cases u <;> first | rfl | contradiction

/-! ### Remainders -/

/-- A magnitude is not negative. -/
theorem Parts.value_nonneg (p : Parts) : 0 ≤ p.value :=
  mul_nonneg (Nat.cast_nonneg _) (twoPow_pos _).le

/-- A magnitude counted in units of a lower place. -/
theorem Parts.value_eq_count (p : Parts) {unit : ℤ} (h : unit ≤ p.exponent) :
    p.value = (p.significand * Nat.pow 2 (p.exponent - unit).toNat : ℕ) * 2 ^ unit := by
  have hexponent : unit + ((p.exponent - unit).toNat : ℤ) = p.exponent := by omega
  show (p.significand : ℚ) * 2 ^ p.exponent
    = ((p.significand * 2 ^ (p.exponent - unit).toNat : ℕ) : ℚ) * 2 ^ unit
  rw [Nat.cast_mul, Nat.cast_pow, Nat.cast_ofNat, mul_assoc, ← twoPow_add_natCast, hexponent]

/-- What is left is less than the magnitude that was taken away. -/
theorem Parts.value_rest_lt (p : Parts) (hq : 0 < q.significand) : (p.rest q).value < q.value := by
  rw [q.value_eq_count (min_le_right p.exponent q.exponent)]
  refine mul_lt_mul_of_pos_right ?_ (twoPow_pos _)
  exact Nat.cast_lt.mpr (Nat.mod_lt _ (Nat.mul_pos hq (Nat.two_pow_pos _)))

/-- Of a lesser magnitude all is left. -/
theorem Parts.value_rest_of_lt (h : p.value < q.value) : (p.rest q).value = p.value := by
  rw [p.value_eq_count (min_le_left p.exponent q.exponent),
    q.value_eq_count (min_le_right p.exponent q.exponent)] at h
  rw [p.value_eq_count (min_le_left p.exponent q.exponent)]
  have hcount := Nat.cast_lt.mp (lt_of_mul_lt_mul_right h (twoPow_pos _).le)
  simp only [Parts.value, Parts.rest]
  rw [Nat.mod_eq_of_lt hcount]

section
variable (hx : x.isFinite = true) (hdivisor : divisor.isFinite = true)
  (hzero : ¬ (divisor == 0.0) = true) (hpositive : 0 < (parts divisor).significand)
  (hplace : (parts divisor).exponent ≤ 0)

include hpositive hplace in
/-- What is left of a finite double is a double. -/
theorem value_rest (x : Float) :
    (ofParts ((parts x).rest (parts divisor))).isFinite = true
      ∧ value (ofParts ((parts x).rest (parts divisor))) = ((parts x).rest (parts divisor)).value
      ∧ signOf (ofParts ((parts x).rest (parts divisor))).toModel.unpack = .positive := by
  have hcount := significand_rest_lt (significand_parts_lt x) (significand_parts_lt divisor)
    hpositive
  have hleastA := le_exponent_parts x
  have hleastB := le_exponent_parts divisor
  have hleast : -1074 ≤ ((parts x).rest (parts divisor)).exponent := le_min hleastA hleastB
  have hgreatest : ((parts x).rest (parts divisor)).exponent ≤ 0 :=
    (min_le_right _ _).trans hplace
  obtain ⟨hfinite, hvalue⟩ := value_ofParts hcount hleast hgreatest
  exact ⟨hfinite, hvalue, signOf_ofParts hcount hleast hgreatest⟩

include hx hdivisor hzero hpositive hplace

/-- The remainder is what is left of the magnitude, with the sign of the dividend. -/
theorem value_remainder :
    (remainder x divisor).isFinite = true
      ∧ value (remainder x divisor) = (if isNegative x then -((parts x).rest (parts divisor)).value
          else ((parts x).rest (parts divisor)).value)
      ∧ signOf (remainder x divisor).toModel.unpack = signOf x.toModel.unpack := by
  obtain ⟨hfinite, hvalue, hsign⟩ := value_rest hpositive hplace x
  rw [remainder_of_finite hx hdivisor hzero, signOf_eq_isNegative hx]
  by_cases hnegative : isNegative x = true
  · obtain ⟨hneg, hnegvalue, hnegsign⟩ := value_neg hfinite
    rw [if_pos hnegative, if_pos hnegative, if_pos hnegative, hnegvalue, hvalue, hnegsign, hsign]
    exact ⟨hneg, rfl, rfl⟩
  · rw [if_neg hnegative, if_neg hnegative, if_neg hnegative]
    exact ⟨hfinite, hvalue, hsign⟩

/-- The remainder is nearer to zero than the divisor. -/
theorem abs_value_remainder_lt : |value (remainder x divisor)| < (parts divisor).value := by
  rw [(value_remainder hx hdivisor hzero hpositive hplace).2.1]
  have hlt := Parts.value_rest_lt (parts x) hpositive
  have hnonneg := ((parts x).rest (parts divisor)).value_nonneg
  split
  · rwa [abs_neg, abs_of_nonneg hnonneg]
  · rwa [abs_of_nonneg hnonneg]

/-- What is nearer to zero than the divisor is its own remainder. -/
theorem remainder_eq_self (hlt : |value x| < (parts divisor).value) : remainder x divisor = x := by
  obtain ⟨hfinite, hvalue, hsign⟩ := value_remainder hx hdivisor hzero hpositive hplace
  -- The value alone would not tell a negative zero from a positive one.
  refine eq_of_value hfinite hx ?_ hsign
  have hparts : (parts x).value < (parts divisor).value := by
    have hnonneg := (parts x).value_nonneg
    rw [value_eq_parts hx] at hlt
    split at hlt
    · rwa [abs_neg, abs_of_nonneg hnonneg] at hlt
    · rwa [abs_of_nonneg hnonneg] at hlt
  rw [hvalue, value_eq_parts hx, Parts.value_rest_of_lt hparts]

end

end FlightPlan.Binary64
