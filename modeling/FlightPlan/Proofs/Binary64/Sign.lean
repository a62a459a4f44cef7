import FlightPlan.Proofs.Binary64.Remainder

/-!
# `FlightPlan.Proofs.Binary64.Sign`: what becomes of the sign

Rounding looks at the magnitude of a result and carries its sign along. So the sign of a factor or
of a dividend is the sign of what comes out (`Binary64.neg_mul`, `Binary64.neg_div`), and a
difference taken the other way round is the same magnitude with the other sign.

There is one exception. Equal numbers have the difference zero both ways round, and it is positive
both times. `sub_swap` therefore leaves two possibilities. They are told apart by no function that
is odd and no square.

All of this holds of every double, infinite or not, because there is one double that is not a
number and it is its own negative.
-/

set_option autoImplicit false

namespace FlightPlan.Binary64

open Float.Model (UnpackedFloat Format)
open Float.Model.UnpackedFloat

/-! ### The sign bit -/

/-- The sign is packed beside the magnitude. -/
theorem unpack_packComponents_neg (s : Sign) (field : BitVec 11) (mantissa : BitVec 52) :
    unpack .binary64 (packComponents .binary64 (-s) field mantissa)
      = (unpack .binary64 (packComponents .binary64 s field mantissa)).neg := by
  simp only [unpack, unpackExponent_packComponents, unpackMantissa_packComponents,
    unpackSign_packComponents, Sign.ofBitVec_toBitVec]
  split
  · split <;> rfl
  split
  · split <;> rfl
  · rfl

/-- Packing a number of the other sign changes nothing but the sign of what comes back. -/
theorem unpack_pack_neg (u : UnpackedFloat) :
    unpack .binary64 (pack .binary64 u.neg) = (unpack .binary64 (pack .binary64 u)).neg := by
  cases u with
  | notANumber => rfl
  | infinity s => exact unpack_packComponents_neg s _ _
  | zero s => exact unpack_packComponents_neg s _ _
  | finite s m e hm =>
      simp only [UnpackedFloat.neg, pack]
      split
      · exact unpack_packComponents_neg s _ _
      split
      · exact unpack_packComponents_neg s _ _
      · exact unpack_packComponents_neg s _ _

/-- What is unpacked is packed again without loss. -/
theorem unpack_pack_unpack (a : Float) :
    unpack .binary64 (pack .binary64 a.toModel.unpack) = a.toModel.unpack :=
  congrArg (unpack .binary64) (pack_unpack_of_valid a.toModel.valid)

/-- To negate a double is to negate what it unpacks to. -/
theorem unpack_neg (a : Float) : (-a).toModel.unpack = a.toModel.unpack.neg := by
  have hneg := unpack_pack_neg a.toModel.unpack
  rwa [unpack_pack_unpack] at hneg

/-- The sign can be changed before packing or after it. -/
theorem neg_pack (u : UnpackedFloat) :
    -Float.ofModel (.pack u) = Float.ofModel (.pack u.neg) :=
  eq_of_unpack ((unpack_neg _).trans (unpack_pack_neg u).symm)

/-! ### Rounding -/

/-- Rounding looks at the magnitude only, and the sign goes through it. -/
theorem roundWithAccuracy_neg (s : Sign) (m : ℕ) (e : ℤ) (accuracy : Accuracy) :
    roundWithAccuracy .binary64 (-s) m e accuracy
      = (roundWithAccuracy .binary64 s m e accuracy).neg := by
  simp only [roundWithAccuracy]
  split <;> rfl

/-- A number that is not zero is rounded to the other side of zero as it is to this one. -/
theorem normalize_neg {m : ℤ} (hm : m ≠ 0) (e : ℤ) (zeroSign : Sign) :
    UnpackedFloat.normalize .binary64 (-m) e zeroSign
      = (UnpackedFloat.normalize .binary64 m e zeroSign).neg := by
  rcases Int.lt_or_gt_of_ne hm with hneg | hpos
  · simp only [UnpackedFloat.normalize, Int.compare_eq_lt.mpr hneg,
      Int.compare_eq_gt.mpr (Int.neg_pos_of_neg hneg)]
    exact roundWithAccuracy_neg .negative _ _ _
  · simp only [UnpackedFloat.normalize, Int.compare_eq_gt.mpr hpos,
      Int.compare_eq_lt.mpr (Int.neg_neg_of_pos hpos), Int.neg_neg]
    exact roundWithAccuracy_neg .positive _ _ _

/-! ### Products and quotients -/

/-- Before rounding the factors of a product can be exchanged. -/
theorem unpacked_mul_comm (u v : UnpackedFloat) :
    UnpackedFloat.mul .binary64 u v = UnpackedFloat.mul .binary64 v u := by
  have hsign (s t : Sign) : s * t = t * s := by cases s <;> cases t <;> rfl
  rcases u with s | _ | s | ⟨s, m, e, hm⟩ <;> rcases v with t | _ | t | ⟨t, n, f, hn⟩ <;>
    simp only [UnpackedFloat.mul, hsign, Nat.mul_comm, Int.add_comm]

/-- Before rounding the sign of a factor is a sign of the product. -/
theorem unpacked_neg_mul (u v : UnpackedFloat) :
    UnpackedFloat.mul .binary64 u.neg v = (UnpackedFloat.mul .binary64 u v).neg := by
  have hsign (s t : Sign) : -s * t = -(s * t) := by cases s <;> cases t <;> rfl
  rcases u with s | _ | s | ⟨s, m, e, hm⟩ <;> rcases v with t | _ | t | ⟨t, n, f, hn⟩ <;>
    simp only [UnpackedFloat.neg, UnpackedFloat.mul, hsign, roundWithAccuracy_neg]

/-- Before rounding the sign of a dividend is a sign of the quotient. -/
theorem unpacked_neg_div (u v : UnpackedFloat) :
    UnpackedFloat.div .binary64 u.neg v = (UnpackedFloat.div .binary64 u v).neg := by
  have hsign (s t : Sign) : -s / t = -(s / t) := by cases s <;> cases t <;> rfl
  rcases u with s | _ | s | ⟨s, m, e, hm⟩ <;> rcases v with t | _ | t | ⟨t, n, f, hn⟩ <;>
    simp only [UnpackedFloat.neg, UnpackedFloat.div, hsign, roundWithAccuracy_neg]

/-- The order of the factors does not matter. -/
protected theorem mul_comm (a b : Float) : a * b = b * a :=
  congrArg (fun u => Float.ofModel (.pack u)) (unpacked_mul_comm _ _)

/-- The sign of a factor is a sign of the product, in every bit. -/
protected theorem neg_mul (a b : Float) : -a * b = -(a * b) := by
  have hproduct : -(a * b) = Float.ofModel
      (.pack (UnpackedFloat.mul .binary64 a.toModel.unpack b.toModel.unpack).neg) := neg_pack _
  rw [hproduct, ← unpacked_neg_mul, ← unpack_neg]
  rfl

/-- The sign of a dividend is a sign of the quotient, in every bit. -/
protected theorem neg_div (a b : Float) : -a / b = -(a / b) := by
  have hquotient : -(a / b) = Float.ofModel
      (.pack (UnpackedFloat.div .binary64 a.toModel.unpack b.toModel.unpack).neg) := neg_pack _
  rw [hquotient, ← unpacked_neg_div, ← unpack_neg]
  rfl

/-- Two changes of sign leave a double as it was. -/
protected theorem neg_neg (a : Float) : - -a = a := by
  refine eq_of_unpack ?_
  rw [unpack_neg, unpack_neg]
  rcases a.toModel.unpack with (_ | _) | _ | (_ | _) | ⟨_ | _, m, e, hm⟩ <;> rfl

/-- A square has lost the sign. -/
theorem neg_mul_neg_self (a : Float) : -a * -a = a * a := by
  rw [Binary64.neg_mul, Binary64.mul_comm a, Binary64.neg_mul, Binary64.neg_neg]

/-- The absolute value is the number itself or its negative. -/
theorem abs_eq_or_neg (a : Float) : a.abs = a ∨ a.abs = -a := by
  have hmagnitude : a.toModel.unpack.abs = a.toModel.unpack
      ∨ a.toModel.unpack.abs = a.toModel.unpack.neg := by
    rcases a.toModel.unpack with (_ | _) | _ | (_ | _) | ⟨_ | _, m, e, hm⟩ <;>
      first | exact .inl rfl | exact .inr rfl
  have habs : a.abs = Float.ofModel (.pack a.toModel.unpack.abs) := rfl
  rw [habs]
  rcases hmagnitude with h | h
  · rw [h]
    exact .inl (eq_of_unpack (unpack_pack_unpack a))
  · rw [h]
    exact .inr rfl

/-- So it is the square of the magnitude. -/
theorem abs_mul_abs_self (a : Float) : a.abs * a.abs = a * a := by
  rcases abs_eq_or_neg a with habs | habs
  · rw [habs]
  · rw [habs, neg_mul_neg_self]

/-! ### Differences -/

/-- A difference taken the other way round has the other sign, unless it is the positive zero both
times. -/
theorem unpacked_sub_swap (u v : UnpackedFloat) :
    UnpackedFloat.sub .binary64 u v = UnpackedFloat.sub .binary64 v u
      ∨ UnpackedFloat.sub .binary64 u v = (UnpackedFloat.sub .binary64 v u).neg := by
  rcases u with s | _ | s | ⟨s, m, e, hm⟩ <;> rcases v with t | _ | t | ⟨t, n, f, hn⟩
  case finite.finite =>
    simp only [UnpackedFloat.sub, min_comm f e]
    generalize s.apply (decreaseExponent m e (min e f)).1 = p
    generalize t.apply (decreaseExponent n f (min e f)).1 = q
    by_cases hpq : p = q
    · exact .inl (by rw [hpq])
    · refine .inr ?_
      rw [← Int.neg_sub]
      exact normalize_neg (by omega) _ _
  -- Nothing is rounded in the other cases, where the signs decide.
  all_goals
    try cases s
    all_goals
      try cases t
      all_goals first | exact .inl rfl | exact .inr rfl

/-- A difference taken the other way round is the same or the negative one. -/
theorem sub_swap (a b : Float) : a - b = b - a ∨ a - b = -(b - a) := by
  have hneg : -(b - a) = Float.ofModel
      (.pack (UnpackedFloat.sub .binary64 b.toModel.unpack a.toModel.unpack).neg) := neg_pack _
  rw [hneg]
  exact (unpacked_sub_swap _ _).imp (congrArg fun u => Float.ofModel (.pack u))
    (congrArg fun u => Float.ofModel (.pack u))

end FlightPlan.Binary64
