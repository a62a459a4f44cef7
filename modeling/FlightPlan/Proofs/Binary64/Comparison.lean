import FlightPlan.Binary64.Scalar
import FlightPlan.Proofs.Scalar.Comparison
import Mathlib.Data.Prod.Lex

/-!
# `FlightPlan.Proofs.Binary64.Comparison`: doubles compare as they should

A double that is a number is an infinity, a zero, or a mantissa and an exponent
with a sign. `rank?` sends it to a triple in lexicographic order: first the kind,
from the negative infinity up to the positive one, then exponent and mantissa,
both turned around when the sign is negative. Comparison of doubles is
comparison of ranks (`le_iff_rank`, `lt_iff_rank`), so they are totally ordered,
and zeros of either sign are equal.
-/

set_option autoImplicit false

namespace FlightPlan

namespace Binary64

open Float.Model (UnpackedFloat)
open Float.Model.UnpackedFloat (Sign)

/-- Kind, exponent and mantissa of a double, in the order they decide comparison. -/
abbrev Rank := Int ×ₗ Int ×ₗ Int

/-- The rank of a double that is a number. -/
def rank? : UnpackedFloat → Option Rank
  | .notANumber => none
  | .infinity .negative => some (toLex (-2, toLex (0, 0)))
  | .finite .negative mantissa exponent _ =>
    some (toLex (-1, toLex (-exponent, -(mantissa : Int))))
  | .zero _ => some (toLex (0, toLex (0, 0)))
  | .finite .positive mantissa exponent _ => some (toLex (1, toLex (exponent, (mantissa : Int))))
  | .infinity .positive => some (toLex (2, toLex (0, 0)))

/-- Turning both numbers around turns their comparison around. -/
theorem compare_neg_neg (a b : Int) : compare (-a) (-b) = (compare a b).swap := by
  rcases Int.lt_trichotomy a b with h | rfl | h
  · rw [Int.compare_eq_lt.mpr h, Int.compare_eq_gt.mpr (Int.neg_lt_neg h)]
    rfl
  · rw [Int.compare_eq_eq.mpr rfl, Int.compare_eq_eq.mpr rfl]
    rfl
  · rw [Int.compare_eq_gt.mpr h, Int.compare_eq_lt.mpr (Int.neg_lt_neg h)]
    rfl

/-- Mantissas compare the same as integers. -/
theorem compare_natCast (m n : Nat) : compare (m : Int) (n : Int) = compare m n := by
  rcases Nat.lt_trichotomy m n with h | rfl | h
  · rw [Nat.compare_eq_lt.mpr h, Int.compare_eq_lt.mpr (Int.ofNat_lt.mpr h)]
  · rw [Nat.compare_eq_eq.mpr rfl, Int.compare_eq_eq.mpr rfl]
  · rw [Nat.compare_eq_gt.mpr h, Int.compare_eq_gt.mpr (Int.ofNat_lt.mpr h)]

/-- Doubles compare as their ranks do. -/
theorem compare_eq_rank (x y : UnpackedFloat) :
    x.compare y = (rank? x).bind fun a => (rank? y).map fun b => compare a b := by
  -- Kinds decide by themselves, except between two finite doubles of the same sign.
  rcases x with (_ | _) | _ | _ | ⟨_ | _, m₁, e₁, h₁⟩ <;>
    rcases y with (_ | _) | _ | _ | ⟨_ | _, m₂, e₂, h₂⟩ <;> try rfl
  · show some ((compare e₁ e₂).then (compare m₁ m₂)).swap
      = some ((compare (-e₁) (-e₂)).then (compare (-(m₁ : Int)) (-(m₂ : Int))))
    rw [compare_neg_neg, compare_neg_neg, compare_natCast, Ordering.swap_then]
  · show some ((compare e₁ e₂).then (compare m₁ m₂))
      = some ((compare e₁ e₂).then (compare (m₁ : Int) (m₂ : Int)))
    rw [compare_natCast]

/-- The rank of a double, if it is a number. -/
def rankOf? (x : Float) : Option Rank :=
  rank? x.toModel.unpack

/-- A double is below or equal to another when its rank is. -/
theorem le_iff_rank {x y : Float} :
    x ≤ y ↔ ∃ a b, rankOf? x = some a ∧ rankOf? y = some b ∧ a ≤ b := by
  have hmodel : x ≤ y ↔ x.toModel.unpack.le y.toModel.unpack = true := decide_eq_true_iff
  rw [hmodel, UnpackedFloat.le, compare_eq_rank, rankOf?, rankOf?]
  cases rank? x.toModel.unpack <;> cases rank? y.toModel.unpack <;>
    simp [Ordering.isLE_iff_ne_gt, compare_le_iff_le]

/-- A double is below another when its rank is. -/
theorem lt_iff_rank {x y : Float} :
    x < y ↔ ∃ a b, rankOf? x = some a ∧ rankOf? y = some b ∧ a < b := by
  have hmodel : x < y ↔ x.toModel.unpack.lt y.toModel.unpack = true := decide_eq_true_iff
  rw [hmodel, UnpackedFloat.lt, compare_eq_rank, rankOf?, rankOf?]
  cases rank? x.toModel.unpack <;> cases rank? y.toModel.unpack <;> simp [compare_lt_iff_lt]

/-- Every double but the one that is not a number has a rank. -/
theorem isSome_rank? (x : UnpackedFloat) : (rank? x).isSome = !x.isNaN := by
  rcases x with (_ | _) | _ | _ | ⟨_ | _, m, e, h⟩ <;> rfl

/-- The doubles with a rank are the numbers. -/
theorem isNaN_eq_false_iff_rank {x : Float} : x.isNaN = false ↔ ∃ a, rankOf? x = some a := by
  rw [← Option.isSome_iff_exists, rankOf?, isSome_rank?, Bool.not_eq_true']
  rfl

/-- What is finite is a number. -/
theorem isNaN_of_isFinite {x : Float} (h : x.isFinite = true) : x.isNaN = false := by
  revert h
  show x.toModel.unpack.isFinite = true → x.toModel.unpack.isNaN = false
  intro h
  cases hx : x.toModel.unpack with
  | notANumber =>
      rw [hx] at h
      exact nomatch h
  | infinity sign => rfl
  | zero sign => rfl
  | finite sign mantissa exponent hpositive => rfl

end Binary64

open Binary64

/-- Doubles compare as they should. -/
instance : LawfulComparison Float where
  numbers_of_le h := by
    obtain ⟨a, b, ha, hb, -⟩ := le_iff_rank.mp h
    exact ⟨isNaN_eq_false_iff_rank.mpr ⟨a, ha⟩, isNaN_eq_false_iff_rank.mpr ⟨b, hb⟩⟩
  le_total hx hy := by
    obtain ⟨a, ha⟩ := isNaN_eq_false_iff_rank.mp hx
    obtain ⟨b, hb⟩ := isNaN_eq_false_iff_rank.mp hy
    rcases le_total a b with hab | hba
    · exact Or.inl (le_iff_rank.mpr ⟨a, b, ha, hb, hab⟩)
    · exact Or.inr (le_iff_rank.mpr ⟨b, a, hb, ha, hba⟩)
  le_trans hxy hyz := by
    obtain ⟨a, b, ha, hb, hab⟩ := le_iff_rank.mp hxy
    obtain ⟨b', c, hb', hc, hbc⟩ := le_iff_rank.mp hyz
    obtain rfl := Option.some.inj (hb.symm.trans hb')
    exact le_iff_rank.mpr ⟨a, c, ha, hc, hab.trans hbc⟩
  lt_iff {x y} := by
    rw [lt_iff_rank, le_iff_rank, le_iff_rank]
    constructor
    · rintro ⟨a, b, ha, hb, hab⟩
      refine ⟨⟨a, b, ha, hb, hab.le⟩, ?_⟩
      rintro ⟨b', a', hb', ha', hba⟩
      obtain rfl := Option.some.inj (ha.symm.trans ha')
      obtain rfl := Option.some.inj (hb.symm.trans hb')
      exact absurd hba (not_le.mpr hab)
    · rintro ⟨⟨a, b, ha, hb, -⟩, hnot⟩
      exact ⟨a, b, ha, hb, not_le.mp fun hba => hnot ⟨b, a, hb, ha, hba⟩⟩
  isNaN_of_isFinite h := Binary64.isNaN_of_isFinite h
  isNaN_zero := by decide

end FlightPlan
