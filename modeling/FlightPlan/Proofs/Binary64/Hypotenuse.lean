import FlightPlan.Proofs.Binary64.Range

/-!
# `FlightPlan.Proofs.Binary64.Hypotenuse`: the root of a sum of squares

A length in space is the root of `x * x + y * y`. Its squares may overflow, and then so does
the length. `isFinite_hypotenuse_iff` says that nothing else can go wrong, as long as `x` is
far from the end of the range:

* a square is not negative, nor is a sum of squares, so it has a root (`NonNegative`);
* a sum cannot overflow when one of its terms is small (`isFinite_add_of_bounded`). Such a
  term is too small to reach the middle between the greatest double and the power of two
  behind it;
* a root is closer to one than what it is taken of (`isFinite_sqrt`).
-/

set_option autoImplicit false

namespace FlightPlan.Binary64

open Float.Model (UnpackedFloat Format totalExponent)
open Float.Model.UnpackedFloat

variable {bound : Int} {a b x y : Float}

/-! ### Sums at the end of the range -/

/-- What is nearer to the greatest double than to the next power of two is rounded to a finite
one. -/
theorem within_round_of_lt (s : Sign) {m : Nat} {e : Int} (hexponent : e ≤ 970)
    (hm : m < (Nat.pow 2 54 - 1) * Nat.pow 2 (970 - e).toNat) :
    Within 971 (UnpackedFloat.round .binary64 s m e) := by
  simp only [UnpackedFloat.round, decreaseExponent]
  generalize (e - Format.binary64.targetExponent (totalExponent m e)).toNat = k
  have hplaces : (970 - (e - k)).toNat = (970 - e).toNat + k := by omega
  have hpow : Nat.pow 2 ((970 - e).toNat + k) = Nat.pow 2 (970 - e).toNat * Nat.pow 2 k :=
    Nat.pow_add ..
  refine within_roundWithAccuracy_of_lt s (by omega) ?_
  rw [Nat.shiftLeft_eq, hplaces, hpow, ← Nat.mul_assoc]
  exact Nat.mul_lt_mul_of_pos_right hm (Nat.two_pow_pos k)

/-- A finite double and a small one have a finite sum. -/
theorem isFinite_add_of_bounded (ha : Bounded 900 a) (hb : b.isFinite = true) :
    (a + b).isFinite = true := by
  rw [isFinite_iff_bounded] at hb ⊢
  refine bounded_add_of ha hb (by decide) (by decide) (by decide) (by decide) ?_
  intro s t m n e f hmant hnant he hf
  have hexponent : min e f ≤ 970 := by omega
  -- Both mantissas are counted in units of the lower place `min e f`. The small double is
  -- below one unit of place 970, and the other has at most `2 ^ 54 - 2` of them.
  have hsmall : (decreaseExponent m e (min e f)).1 < Nat.pow 2 (970 - min e f).toNat :=
    Nat.lt_of_lt_of_le (decreaseExponent_lt hmant he (min e f))
      (Nat.pow_le_pow_right (by decide) (by omega))
  have hlarge : (decreaseExponent n f (min e f)).1
      ≤ (Nat.pow 2 54 - 2) * Nat.pow 2 (970 - min e f).toNat := by
    have hshift : (decreaseExponent n f (min e f)).1 = n * Nat.pow 2 (f - min e f).toNat :=
      Nat.shiftLeft_eq ..
    have hplaces : Nat.pow 2 (f - min e f).toNat ≤ Nat.pow 2 ((970 - min e f).toNat + 1) :=
      Nat.pow_le_pow_right (by decide) (by omega)
    have hdouble : Nat.pow 2 ((970 - min e f).toNat + 1)
        = 2 * Nat.pow 2 (970 - min e f).toNat := Nat.pow_succ'
    have hhalf : Nat.pow 2 54 - 2 = (Nat.pow 2 53 - 1) * 2 := by decide
    rw [hshift, hhalf, Nat.mul_assoc, ← hdouble]
    exact Nat.mul_le_mul (Nat.le_sub_one_of_lt hnant) hplaces
  have hunits : (Nat.pow 2 54 - 1) * Nat.pow 2 (970 - min e f).toNat
      = (Nat.pow 2 54 - 2) * Nat.pow 2 (970 - min e f).toNat
        + Nat.pow 2 (970 - min e f).toNat := Nat.succ_mul ..
  refine within_normalize_of .positive fun sign => within_round_of_lt sign hexponent ?_
  rw [hunits]
  cases s <;> cases t <;> simp only [Sign.apply] <;> omega

/-! ### Doubles that are not negative -/

/-- A zero, of either sign, or positive. -/
inductive NonNegative : UnpackedFloat → Prop
  | zero (s : Sign) : NonNegative (.zero s)
  | finite {m : Nat} {e : Int} {hm : 0 < m} : NonNegative (.finite .positive m e hm)
  | infinity : NonNegative (.infinity .positive)

/-- Without its sign bit a finite double is not negative. -/
theorem nonNegative_unpack {bits : BitVec 64} (hsign : @unpackSign .binary64 bits = 0#1)
    (hfinite : (@unpackExponent .binary64 bits).toNat ≠ 2047) :
    NonNegative (unpack .binary64 bits) := by
  have hfield : @unpackExponent .binary64 bits ≠ -1#_ := fun h => hfinite (by rw [h]; rfl)
  simp only [unpack, if_neg hfield, hsign]
  split
  · split
    · exact .zero _
    · exact .finite
  · exact .finite

/-- Packing keeps what is not negative so. -/
theorem nonNegative_unpack_pack {u : UnpackedFloat} (h : NonNegative u) :
    NonNegative (unpack .binary64 (pack .binary64 u)) := by
  -- The sign bit is packed as it is, and only an infinity has an exponent field full of ones.
  have hcomponents (field : BitVec 11) (mantissa : BitVec 52) (hfinite : field.toNat ≠ 2047) :
      NonNegative (unpack .binary64 (packComponents .binary64 .positive field mantissa)) := by
    refine nonNegative_unpack (unpackSign_packComponents ..) ?_
    rwa [unpackExponent_packComponents]
  cases h with
  | zero s => cases s <;> exact .zero _
  | infinity => exact .infinity
  | @finite m e hm =>
      simp only [pack]
      split
      · exact .infinity
      rename_i hbiased
      have hfinite : ¬ 2048 ≤ (e + 1023 + 52).toNat + 1 := hbiased
      split
      · have hfield : (BitVec.ofNat 11 (e + 1023 + 52).toNat).toNat = (e + 1023 + 52).toNat :=
          Nat.mod_eq_of_lt (by omega)
        exact hcomponents (BitVec.ofNat 11 (e + 1023 + 52).toNat) _ (by omega)
      · exact hcomponents 0 _ (by decide)

/-- With a positive sign nothing is rounded to a negative number. -/
theorem nonNegative_roundWithAccuracy (m : Nat) (e : Int) (accuracy : Accuracy) :
    NonNegative (roundWithAccuracy .binary64 .positive m e accuracy) := by
  simp only [roundWithAccuracy]
  split
  · exact .zero _
  · exact .finite

/-- A square is not negative. -/
theorem nonNegative_mul_self (hx : x.isFinite = true) : NonNegative (x * x).toModel.unpack := by
  refine nonNegative_unpack_pack
    (u := UnpackedFloat.mul .binary64 x.toModel.unpack x.toModel.unpack) ?_
  rcases (isFinite_iff_bounded.mp hx).zero_or_finite with ⟨s, hu⟩ | ⟨s, m, e, hm, hu, -⟩
  · rw [hu]
    exact .zero _
  · rw [hu]
    cases s <;> exact nonNegative_roundWithAccuracy _ _ _

/-- What is not negative has a sum that is not negative. -/
theorem nonNegative_add {u v : UnpackedFloat} (hu : NonNegative u) (hv : NonNegative v) :
    NonNegative (UnpackedFloat.add .binary64 u v) := by
  cases hu with
  | zero s =>
      cases hv with
      | zero t => cases s <;> cases t <;> exact .zero _
      | finite => exact .finite
      | infinity => exact .infinity
  | infinity => cases hv <;> exact .infinity
  | finite =>
      cases hv with
      | zero t => exact .finite
      | infinity => exact .infinity
      | finite =>
          simp only [UnpackedFloat.add, UnpackedFloat.normalize, Sign.apply]
          -- Positive mantissas do not add up to a negative one.
          split
          · rename_i hneg
            have := Int.compare_eq_lt.mp hneg
            omega
          · exact .zero _
          · exact nonNegative_roundWithAccuracy _ _ _

/-! ### Roots -/

/-- What is finite and not negative has a finite root. -/
theorem isFinite_sqrt (hx : x.isFinite = true) (hsign : NonNegative x.toModel.unpack) :
    (Float.sqrt x).isFinite = true := by
  rw [isFinite_iff_bounded] at hx ⊢
  refine bounded_pack (u := UnpackedFloat.sqrt .binary64 x.toModel.unpack) (by decide)
    (by decide) ?_
  rcases hx.zero_or_finite with ⟨s, hu⟩ | ⟨s, m, e, hm, hu, hmant, hleast, he⟩
  · rw [hu]
    exact .zero s
  rw [hu] at hsign ⊢
  cases hsign
  have hlog := log2_le_of_lt_pow (k := 52) hmant
  have htarget := targetExponent_eq ((totalExponent m e + 1) / 2)
  -- The mantissa is shifted to an even place `2 * place`, of which half is left.
  show Within 971 (roundWithAccuracy .binary64 .positive (m <<< _).sqrt _ _)
  generalize hplace : min (e / 2)
    (Format.binary64.targetExponent ((totalExponent m e + 1) / 2)) = place
  have hshift := log2_shiftLeft_le m (e - 2 * place).toNat
  have hroot := log2_mono (Nat.sqrt_le_self (m <<< (e - 2 * place).toNat))
  refine within_roundWithAccuracy (by decide) _ _ (by omega) ?_
  rw [htarget] at hplace
  rw [totalExponent] at *
  omega

/-- What has a finite root is finite. -/
theorem isFinite_of_sqrt (h : (Float.sqrt x).isFinite = true) : x.isFinite = true := by
  have hresult : (UnpackedFloat.sqrt .binary64 x.toModel.unpack).isFinite = true :=
    isFinite_of_pack h
  show x.toModel.unpack.isFinite = true
  revert hresult
  rcases x.toModel.unpack with (_ | _) | _ | _ | _ <;>
    first | exact fun _ => rfl | exact fun h => nomatch h

/-- Next to a short part, a length is finite exactly when the square of the other part is. -/
theorem isFinite_hypotenuse_iff (hx : Bounded 400 x) :
    (Float.sqrt (x * x + y * y)).isFinite = true ↔ (y * y).isFinite = true := by
  have hsquare : Bounded 900 (x * x) := hx.mul hx (by decide) (by decide) (by decide)
  constructor
  · intro h
    exact (isFinite_of_add (isFinite_of_sqrt h)).2
  · intro h
    have hfinite : x.isFinite = true := hx.isFinite (by decide)
    refine isFinite_sqrt (isFinite_add_of_bounded hsquare h) (nonNegative_unpack_pack ?_)
    exact nonNegative_add (nonNegative_mul_self hfinite)
      (nonNegative_mul_self (isFinite_of_mul h).1)

end FlightPlan.Binary64
