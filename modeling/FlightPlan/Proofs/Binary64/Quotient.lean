import FlightPlan.Proofs.Binary64.Range

/-!
# `FlightPlan.Proofs.Binary64.Quotient`: division by what is not below one

A quotient can only overflow when the divisor is below one. `AtLeastOne` says that it is not,
and `Bounded.div` bounds the quotient by the dividend.

That a divisor is at least one can be told before it is rounded. A number with more digits
than a double has keeps 53 of them (`roundWithAccuracy_eq_finite`), and the place in front of
the first digit never moves down.
-/

set_option autoImplicit false

namespace FlightPlan.Binary64

open Float.Model (UnpackedFloat Format totalExponent)
open Float.Model.UnpackedFloat

variable {bound : Int} {a b : Float}

/-- Infinite, or finite and not below one in magnitude. -/
inductive AtLeastOne : UnpackedFloat → Prop
  | infinity (s : Sign) : AtLeastOne (.infinity s)
  | finite {s : Sign} {m : Nat} {e : Int} {hm : 0 < m} (h : 1 ≤ totalExponent m e) :
    AtLeastOne (.finite s m e hm)

/-- It can be decided whether a number is at least one. -/
instance : (u : UnpackedFloat) → Decidable (AtLeastOne u)
  | .infinity s => isTrue (.infinity s)
  | .finite _ m e _ => decidable_of_iff (1 ≤ totalExponent m e) ⟨.finite, fun | .finite h => h⟩
  | .zero _ => isFalse nofun
  | .notANumber => isFalse nofun

/-! ### Rounding keeps digits -/

/-- Rounding does not go below the mantissa. -/
theorem le_roundedMantissa (em : ExtendedMantissa) : em.mantissa ≤ em.roundedMantissa := by
  obtain ⟨m, r, s⟩ := em
  cases r <;> cases s <;>
    simp [ExtendedMantissa.roundedMantissa, ExtendedMantissa.accuracy, Accuracy.roundToNearestEven]

/-- A number with more than 53 digits is rounded to 53, and what is not below one stays so. -/
theorem roundWithAccuracy_eq_finite (s : Sign) {m : Nat} {e : Int} (accuracy : Accuracy)
    (hdigits : 53 ≤ m.log2) (htotal : 1 ≤ totalExponent m e) :
    ∃ n f hn, roundWithAccuracy .binary64 s m e accuracy = .finite s n f hn
      ∧ n.log2 = 52 ∧ 1 ≤ totalExponent n f := by
  -- The number is shifted to 53 digits and rounded to `r`, which may have one more.
  obtain ⟨k, hk⟩ : ∃ k : Nat, k = (Format.binary64.targetExponent (totalExponent m e) - e).toNat :=
    ⟨_, rfl⟩
  obtain ⟨r, hr⟩ : ∃ r : Nat,
      r = (ExtendedMantissa.ofMantissaAndAccuracy m accuracy >>> k).roundedMantissa := ⟨_, rfl⟩
  obtain ⟨l, hl⟩ : ∃ l : Nat,
      l = (Format.binary64.targetExponent (totalExponent r (e + k)) - (e + k)).toNat := ⟨_, rfl⟩
  have hresult : roundWithAccuracy .binary64 s m e accuracy
      = if h : (ExtendedMantissa.ofMantissaAndAccuracy r .exact >>> l).mantissa = 0 then .zero s
        else .finite s (ExtendedMantissa.ofMantissaAndAccuracy r .exact >>> l).mantissa (e + k + l)
          (Nat.pos_of_ne_zero h) := by
    subst hl hr hk
    rfl
  have hshifted := mantissa_shiftRight m accuracy k
  have hlower : m / Nat.pow 2 k ≤ r := by
    rw [hr, ← hshifted]
    exact le_roundedMantissa _
  have hupper : r ≤ m / Nat.pow 2 k + 1 := by
    rw [hr, ← hshifted]
    exact roundedMantissa_le _
  have hlogLower := log2_mono hlower
  have hlogUpper := log2_le_of_le_succ hupper
  rw [log2_div_pow] at hlogLower hlogUpper
  rw [targetExponent_eq] at hk hl
  rw [totalExponent] at hk hl htotal
  have hlast : (ExtendedMantissa.ofMantissaAndAccuracy r .exact >>> l).mantissa.log2 = 52 := by
    rw [mantissa_shiftRight, log2_div_pow]
    omega
  have hne : (ExtendedMantissa.ofMantissaAndAccuracy r .exact >>> l).mantissa ≠ 0 := by
    intro h
    rw [h] at hlast
    exact absurd hlast (by decide)
  refine ⟨_, _, Nat.pos_of_ne_zero hne, by rw [hresult, dif_neg hne], hlast, ?_⟩
  rw [totalExponent, hlast]
  omega

/-- A normal double whose exponent field is that of `1.0` or higher is not below it. -/
theorem atLeastOne_unpack (s : Sign) {field : BitVec 11} {mantissa : BitVec 52}
    (hleast : 1023 ≤ field.toNat) (hfinite : field.toNat ≠ 2047) :
    AtLeastOne (unpack .binary64 (packComponents .binary64 s field mantissa)) := by
  have hnormal : field ≠ 0#_ := fun h => by
    rw [h] at hleast
    exact absurd hleast (by decide)
  have hfield : field ≠ -1#_ := fun h => hfinite (by rw [h]; rfl)
  -- A normal double has a leading one that is not among its bits.
  have hleading : Nat.pow 2 52 ≤ (1#1 ++ mantissa).toNat := by
    rw [BitVec.toNat_append]
    exact Nat.left_le_or
  have hlog : 52 ≤ (1#1 ++ mantissa).toNat.log2 := log2_mono hleading
  have hbias := exponentBias_eq
  simp only [unpack, unpackExponent_packComponents, unpackMantissa_packComponents]
  rw [if_neg hfield, if_neg hnormal]
  refine .finite ?_
  rw [totalExponent]
  show 1 ≤ ((1#1 ++ mantissa).toNat.log2 : Int) + 1 + (field.toNat - (1023 + 52))
  omega

/-- A number with 53 digits that is not below one stays so when it is packed. -/
theorem atLeastOne_unpack_pack {s : Sign} {n : Nat} {f : Int} (hn : 0 < n) (hdigits : n.log2 = 52)
    (htotal : 1 ≤ totalExponent n f) :
    AtLeastOne (unpack .binary64 (pack .binary64 (.finite s n f hn))) := by
  rw [totalExponent, hdigits] at htotal
  simp only [pack]
  split
  · cases s <;> exact .infinity _
  rename_i hbiased
  have hfinite : ¬ 2048 ≤ (f + 1023 + 52).toNat + 1 := hbiased
  split
  · have hfield : (BitVec.ofNat 11 (f + 1023 + 52).toNat).toNat = (f + 1023 + 52).toNat :=
      Nat.mod_eq_of_lt (by omega)
    have hleast : 1023 ≤ (BitVec.ofNat 11 (f + 1023 + 52).toNat).toNat := by omega
    have hgreatest : (BitVec.ofNat 11 (f + 1023 + 52).toNat).toNat ≠ 2047 := by omega
    exact atLeastOne_unpack s hleast hgreatest
  · rename_i hsubnormal
    exact absurd (by rw [hdigits]; rfl) hsubnormal

/-! ### Quotients -/

/-- The digits of a quotient are at most those by which the dividend exceeds the divisor. -/
theorem log2_div_le {m n : Nat} (hn : 0 < n) : (m / n).log2 ≤ m.log2 - n.log2 := by
  have hself : Nat.pow 2 n.log2 ≤ n := Nat.log2_self_le (Nat.ne_of_gt hn)
  have hquotient : m / n ≤ m / Nat.pow 2 n.log2 := Nat.div_le_div_left hself (Nat.two_pow_pos _)
  rw [← log2_div_pow]
  exact log2_mono hquotient

/-- Dividing by a number that is at least one keeps the bound of the dividend, but for its
digits. -/
theorem Bounded.div {boundA : Int} (ha : Bounded boundA a) (hb : AtLeastOne b.toModel.unpack)
    (hbound : boundA + 54 ≤ bound) (hleast : -1074 ≤ bound) (hgreatest : bound ≤ 971) :
    Bounded bound (a / b) := by
  refine bounded_pack (u := UnpackedFloat.div .binary64 a.toModel.unpack b.toModel.unpack) hleast
    hgreatest ?_
  have hfits : Fits b.toModel.unpack := fits_unpack _
  generalize b.toModel.unpack = v at *
  rcases ha.zero_or_finite with ⟨t, hu⟩ | ⟨t, m, e, hm, hu, hmant, -, he⟩
  · rw [hu]
    cases hb <;> exact .zero _
  rw [hu]
  cases hb with
  | infinity s => exact .zero _
  | @finite s n f hn hdivisor =>
      have hlogm := log2_le_of_lt_pow (k := 52) hmant
      have hlogn := log2_le_of_lt_pow (k := 52) hfits.1
      simp only [UnpackedFloat.div, divCore]
      generalize hplace : min (e - f)
        (Format.binary64.targetExponent (totalExponent m e - totalExponent n f)) = place
      -- The dividend is shifted to the place that the quotient is rounded at, and the divisor
      -- takes as many digits from it as it has.
      have hshift := log2_shiftLeft_le m (e - f - place).toNat
      have hquotient := log2_div_le (m := m <<< (e - f - place).toNat) hn
      simp only [totalExponent] at hdivisor
      refine within_roundWithAccuracy hleast _ _ (by omega) ?_
      simp only [totalExponent]
      omega

end FlightPlan.Binary64
