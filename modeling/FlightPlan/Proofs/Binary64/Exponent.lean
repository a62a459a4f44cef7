import FlightPlan.Binary64.Scalar
import Mathlib

/-!
# `FlightPlan.Proofs.Binary64.Exponent`: rounding stays in range

A finite double has at most 53 binary digits, and its exponent is the place of the last
one, from `-1074` to `971`. So a bound on the exponent bounds the double: `Within bound`
says that an unpacked double is finite with an exponent up to `bound`, and `Within 971`
is being finite (`isFinite_iff_within`). The bound survives packing and unpacking
(`within_unpack_pack`), also for numbers with more digits than a double has, because the
exponent field alone decides.

Results of arithmetic are exact numbers that are rounded. `totalExponent` is the place in
front of the first digit of such a number.

* `within_roundWithAccuracy`: a number whose first digit is 52 places above the bound, or
  fewer, is rounded to a double within the bound. Rounding up can carry into one more
  digit, which is where the 53rd place is spent.
* `within_roundWithAccuracy_of_lt`: at the upper end of the range there is no place to
  spend. There a number rounds to a finite double as long as it is below the middle
  between the greatest double and the power of two behind it.
-/

set_option autoImplicit false

namespace FlightPlan.Binary64

open Float.Model (UnpackedFloat Format totalExponent)
open Float.Model.UnpackedFloat

/-! ### Exponents of doubles -/

/-- What 64 bits can hold. -/
def Fits : UnpackedFloat → Prop
  | .finite _ mantissa exponent _ =>
    mantissa < Nat.pow 2 53 ∧ -1074 ≤ exponent ∧ exponent ≤ 971
  | _ => True

/-- Finite, with an exponent up to the bound. -/
inductive Within (bound : Int) : UnpackedFloat → Prop
  | zero (s : Sign) : Within bound (.zero s)
  | finite {s : Sign} {m : Nat} {e : Int} {hm : 0 < m} (h : e ≤ bound) :
    Within bound (.finite s m e hm)

/-- A finite number is within the bound when its exponent is. -/
theorem within_finite_iff {bound : Int} {s : Sign} {m : Nat} {e : Int} {hm : 0 < m} :
    Within bound (.finite s m e hm) ↔ e ≤ bound :=
  ⟨fun | .finite h => h, .finite⟩

/-- It can be decided whether a number is within a bound. -/
instance (bound : Int) : (u : UnpackedFloat) → Decidable (Within bound u)
  | .zero s => isTrue (.zero s)
  | .finite _ _ _ _ => decidable_of_iff _ within_finite_iff.symm
  | .infinity _ => isFalse nofun
  | .notANumber => isFalse nofun

/-- What is within a bound is within every greater one. -/
theorem Within.mono {bound greater : Int} (h : bound ≤ greater) {u : UnpackedFloat} :
    Within bound u → Within greater u
  | .zero s => .zero s
  | .finite hu => .finite (Int.le_trans hu h)

/-- The bias of the exponents of doubles. -/
theorem exponentBias_eq : Format.binary64.exponentBias = 1023 := rfl

/-- What is unpacked from 64 bits fits them. -/
theorem fits_unpack (b : BitVec 64) : Fits (unpack .binary64 b) := by
  have hmantissa : (@unpackMantissa .binary64 b).toNat < Nat.pow 2 52 :=
    (@unpackMantissa .binary64 b).isLt
  have hexponent : (@unpackExponent .binary64 b).toNat < 2048 :=
    (@unpackExponent .binary64 b).isLt
  have hbias := exponentBias_eq
  simp only [unpack]
  split
  · split <;> trivial
  rename_i hfinite
  have hgreatest : (@unpackExponent .binary64 b).toNat ≠ 2047 := fun h =>
    hfinite (BitVec.eq_of_toNat_eq h)
  split
  · -- The subnormal doubles have the exponent of the least normal ones.
    rename_i hzero
    split
    · trivial
    · refine ⟨Nat.lt_trans hmantissa (by decide), ?_, ?_⟩
      · rw [hzero]
        decide
      · rw [hzero]
        decide
  · rename_i hnormal
    have hleast : (@unpackExponent .binary64 b).toNat ≠ 0 := fun h =>
      hnormal (BitVec.eq_of_toNat_eq h)
    exact ⟨(1#1 ++ @unpackMantissa .binary64 b).isLt, by omega, by omega⟩

/-- The doubles within the greatest exponent are the finite ones. -/
theorem isFinite_iff_within {u : UnpackedFloat} (h : Fits u) :
    u.isFinite = true ↔ Within 971 u := by
  cases u with
  | finite s m e hm => exact ⟨fun _ => .finite h.2.2, fun _ => rfl⟩
  | zero s => exact ⟨fun _ => .zero s, fun _ => rfl⟩
  | infinity s => exact ⟨nofun, nofun⟩
  | notANumber => exact ⟨nofun, nofun⟩

/-- The exponent field alone bounds the exponent. -/
theorem within_unpack {b : BitVec 64} {bound : Int} (hleast : -1074 ≤ bound)
    (hfinite : (@unpackExponent .binary64 b).toNat ≠ 2047)
    (hfield : ((@unpackExponent .binary64 b).toNat : Int) ≤ max 1 (bound + 1075)) :
    Within bound (unpack .binary64 b) := by
  have hfield' : @unpackExponent .binary64 b ≠ -1#_ := fun h => hfinite (by rw [h]; rfl)
  have hbias := exponentBias_eq
  simp only [unpack, if_neg hfield']
  split
  · rename_i hzero
    split
    · exact .zero _
    · refine .finite ?_
      rw [hzero]
      exact hleast
  · rename_i hnormal
    have hpositive : (@unpackExponent .binary64 b).toNat ≠ 0 := fun h =>
      hnormal (BitVec.eq_of_toNat_eq h)
    exact .finite (by omega)

/-- A bound on the exponent survives packing. -/
theorem within_unpack_pack {u : UnpackedFloat} {bound : Int} (hleast : -1074 ≤ bound)
    (hgreatest : bound ≤ 971) (h : Within bound u) :
    Within bound (unpack .binary64 (pack .binary64 u)) := by
  -- What is packed into the mantissa does not matter, so nothing is said about its digits.
  have hcomponents (s : Sign) (field : BitVec 11) (mantissa : BitVec 52)
      (hfinite : field.toNat ≠ 2047) (hfield : (field.toNat : Int) ≤ max 1 (bound + 1075)) :
      Within bound (unpack .binary64 (packComponents .binary64 s field mantissa)) := by
    refine within_unpack hleast ?_ ?_
    · rwa [unpackExponent_packComponents]
    · rwa [unpackExponent_packComponents]
  have hzero : ((0 : BitVec 11).toNat : Int) ≤ max 1 (bound + 1075) := by
    simp only [BitVec.ofNat_eq_ofNat, BitVec.toNat_ofNat]
    omega
  cases h with
  | zero s => exact hcomponents s 0 0 (by decide) hzero
  | @finite s m e hm hexponent =>
      simp only [pack]
      split
      · rename_i hbiased
        have hoverflow : 2048 ≤ (e + 1023 + 52).toNat + 1 := hbiased
        omega
      split
      · have hfield : (BitVec.ofNat 11 (e + 1023 + 52).toNat).toNat = (e + 1023 + 52).toNat :=
          Nat.mod_eq_of_lt (by omega)
        exact hcomponents s (BitVec.ofNat 11 (e + 1023 + 52).toNat) _ (by omega) (by omega)
      · exact hcomponents s 0 _ (by decide) hzero

/-- What is not finite stays so when it is packed. -/
theorem not_isFinite_unpack_pack {u : UnpackedFloat} (h : u.isFinite = false) :
    (unpack .binary64 (pack .binary64 u)).isFinite = false := by
  cases u with
  | notANumber => rfl
  | infinity s => cases s <;> rfl
  | zero s => exact nomatch h
  | finite s m e hm => exact nomatch h

/-! ### Binary digits -/

/-- One more can begin one more digit. -/
theorem log2_le_of_le_succ {m n : Nat} (h : n ≤ m + 1) : n.log2 ≤ m.log2 + 1 := by
  by_cases hn : n = 0
  · rw [hn]
    exact Nat.zero_le _
  refine Nat.le_of_lt_succ ((Nat.log2_lt hn).mpr ?_)
  have hm : m < Nat.pow 2 (m.log2 + 1) := Nat.lt_log2_self
  have hdouble : Nat.pow 2 (m.log2 + 1 + 1) = Nat.pow 2 (m.log2 + 1) * 2 := rfl
  show n < Nat.pow 2 (m.log2 + 1 + 1)
  omega

/-- A number below a power of two has at most as many bits. -/
theorem log2_le_of_lt_pow {n k : Nat} (h : n < Nat.pow 2 (k + 1)) : n.log2 ≤ k := by
  by_cases hn : n = 0
  · rw [hn]
    exact Nat.zero_le k
  · exact Nat.le_of_lt_succ ((Nat.log2_lt hn).mpr h)

/-- A greater number has no fewer bits. -/
theorem log2_mono {m n : Nat} (h : m ≤ n) : m.log2 ≤ n.log2 := by
  rw [Nat.log2_eq_log_two, Nat.log2_eq_log_two]
  exact Nat.log_mono_right h

/-- Cutting off bits leaves the others. -/
theorem log2_div_pow (m k : Nat) : (m / Nat.pow 2 k).log2 = m.log2 - k := by
  rw [Nat.log2_eq_log_two, Nat.log2_eq_log_two]
  exact Nat.log_div_base_pow 2 m k

/-! ### Rounding -/

/-- A double keeps 53 bits, as far as the least exponent allows. -/
theorem targetExponent_eq (total : Int) :
    Format.binary64.targetExponent total = max (total - 53) (-1074) := rfl

/-- A shift to the right cuts bits off the mantissa. -/
theorem mantissa_shiftRight (m : Nat) (accuracy : Accuracy) (k : Nat) :
    (ExtendedMantissa.ofMantissaAndAccuracy m accuracy >>> k).mantissa = m / Nat.pow 2 k := by
  show (k.repeat ExtendedMantissa.shiftRightOne _).mantissa = _
  induction k with
  | zero => rcases accuracy with _ | (_ | _ | _) <;> exact (Nat.div_one m).symm
  | succ k ih =>
      show (k.repeat ExtendedMantissa.shiftRightOne _).mantissa / 2 = _
      rw [ih, Nat.div_div_eq_div_mul]
      rfl

/-- Rounding goes up by at most one. -/
theorem roundedMantissa_le (em : ExtendedMantissa) : em.roundedMantissa ≤ em.mantissa + 1 := by
  obtain ⟨m, r, s⟩ := em
  cases r <;> cases s <;>
    simp [ExtendedMantissa.roundedMantissa, ExtendedMantissa.accuracy, Accuracy.roundToNearestEven]
  omega

/-- It goes up only when the digit behind the last is a one. -/
theorem roundedMantissa_shiftRightOne_le (em : ExtendedMantissa) :
    em.shiftRightOne.roundedMantissa ≤ (em.mantissa + 1) / 2 := by
  obtain ⟨m, r, s⟩ := em
  have hround : ExtendedMantissa.shiftRightOne ⟨m, r, s⟩ = ⟨m / 2, m % 2 != 0, r || s⟩ := rfl
  rw [hround]
  rcases Nat.mod_two_eq_zero_or_one m with heven | hodd
  · rw [heven]
    show Accuracy.roundToNearestEven (m / 2) (ExtendedMantissa.accuracy ⟨m / 2, false, r || s⟩) ≤ _
    cases r || s <;> exact Nat.div_le_div_right (Nat.le_succ m)
  · refine Nat.le_trans (roundedMantissa_le _) ?_
    show m / 2 + 1 ≤ (m + 1) / 2
    omega

/-- What is left of the number when its digits are as many as a double has, rounded. -/
theorem within_zero_or_finite {bound : Int} (s : Sign) (m : Nat) {e : Int} (h : e ≤ bound) :
    Within bound (if hm : m = 0 then .zero s else .finite s m e (Nat.pos_of_ne_zero hm)) := by
  split
  · exact .zero s
  · exact .finite h

/-- A number `m * 2 ^ e` is shifted to `k` digits fewer and rounded to `n`. The result is
within the bound when both the place it is shifted to and the digits of `n` are. -/
theorem within_roundWithAccuracy_of {bound : Int} (hleast : -1074 ≤ bound) (s : Sign) {m : Nat}
    {e : Int} {accuracy : Accuracy} {k n : Nat}
    (hk : k = (Format.binary64.targetExponent (totalExponent m e) - e).toNat)
    (hn : n = (ExtendedMantissa.ofMantissaAndAccuracy m accuracy >>> k).roundedMantissa)
    (hplace : e + k ≤ bound) (htotal : totalExponent n (e + k) ≤ bound + 53) :
    Within bound (roundWithAccuracy .binary64 s m e accuracy) := by
  subst hn hk
  refine within_zero_or_finite s _ ?_
  show e + _ + ((Format.binary64.targetExponent _ - (e + _) : Int).toNat : Int) ≤ bound
  rw [targetExponent_eq (totalExponent _ (e + _))]
  omega

/-- A number with its first digit at most 52 places above the bound rounds to a double
within the bound. -/
theorem within_roundWithAccuracy {bound : Int} (hleast : -1074 ≤ bound) (s : Sign) {m : Nat}
    {e : Int} (accuracy : Accuracy) (hexponent : e ≤ bound)
    (htotal : totalExponent m e ≤ bound + 52) :
    Within bound (roundWithAccuracy .binary64 s m e accuracy) := by
  refine within_roundWithAccuracy_of hleast s rfl rfl ?_ ?_
  · rw [targetExponent_eq]
    omega
  · rw [targetExponent_eq]
    generalize hk : (max (totalExponent m e - 53) (-1074) - e).toNat = k
    -- Rounding up can carry into one more digit, and the 53rd place is left for it.
    have hrounded :
        (ExtendedMantissa.ofMantissaAndAccuracy m accuracy >>> k).roundedMantissa
          ≤ m / Nat.pow 2 k + 1 := by
      rw [← mantissa_shiftRight m accuracy k]
      exact roundedMantissa_le _
    have hlog := log2_le_of_le_succ hrounded
    rw [log2_div_pow] at hlog
    rw [totalExponent] at *
    omega

/-- A number below the middle between the greatest double, `(2 ^ 53 - 1) * 2 ^ 971`, and the
power of two behind it rounds to a finite double. -/
theorem within_roundWithAccuracy_of_lt (s : Sign) {m : Nat} {e : Int} (hexponent : e ≤ 970)
    (hm : m < (Nat.pow 2 54 - 1) * Nat.pow 2 (970 - e).toNat) :
    Within 971 (roundWithAccuracy .binary64 s m e .exact) := by
  have hlog : m.log2 ≤ 53 + (970 - e).toNat := by
    refine log2_le_of_lt_pow (Nat.lt_of_lt_of_le hm ?_)
    have hpow : Nat.pow 2 (53 + (970 - e).toNat + 1)
        = Nat.pow 2 54 * Nat.pow 2 (970 - e).toNat := by
      rw [Nat.add_right_comm]
      exact Nat.pow_add 2 54 _
    rw [hpow]
    exact Nat.mul_le_mul_right _ (Nat.sub_le ..)
  by_cases htotal : totalExponent m e ≤ 1023
  · exact within_roundWithAccuracy (by decide) s .exact (by omega) htotal
  -- The number has its first digit right below the end of the range, so it is shifted to
  -- place 971, and what is behind that place is below one half.
  have hk : (970 - e).toNat + 1
      = (Format.binary64.targetExponent (totalExponent m e) - e).toNat := by
    rw [targetExponent_eq]
    rw [totalExponent] at *
    omega
  refine within_roundWithAccuracy_of (by decide) s hk rfl (by omega) ?_
  have hrounded :
      (ExtendedMantissa.ofMantissaAndAccuracy m .exact >>> ((970 - e).toNat + 1)).roundedMantissa
        ≤ (m / Nat.pow 2 (970 - e).toNat + 1) / 2 := by
    rw [← mantissa_shiftRight m .exact]
    exact roundedMantissa_shiftRightOne_le _
  have hdigits : m / Nat.pow 2 (970 - e).toNat < Nat.pow 2 54 - 1 :=
    Nat.div_lt_of_lt_mul (by rwa [Nat.mul_comm])
  have hlast := log2_le_of_lt_pow (n := (ExtendedMantissa.ofMantissaAndAccuracy m .exact
    >>> ((970 - e).toNat + 1)).roundedMantissa) (k := 52) (by
      have h54 : Nat.pow 2 54 = 18014398509481984 := rfl
      have h53 : Nat.pow 2 (52 + 1) = 9007199254740992 := rfl
      omega)
  rw [totalExponent]
  omega

end FlightPlan.Binary64
