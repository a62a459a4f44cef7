import FlightPlan.Proofs.Binary64.Remainder

/-!
# `FlightPlan.Proofs.Binary64.Growth`: sums that grow

A sum of doubles that are not negative is a number, and it is not below its first term (`le_add`).
Rounding can swallow the second term, though, and then the sum stays where it was. That does not
happen to steps of one or more below `2 ^ 53`: up to there each whole number is a double, and the
sum passes or meets the first whole number above the term (`lt_add_of_one_le`).
-/

set_option autoImplicit false

namespace FlightPlan.Binary64

open Float.Model (UnpackedFloat)
open Float.Model.UnpackedFloat

variable {a b : Float}

/-- Infinity is unpacked as it was packed. -/
theorem unpack_pack_infinity :
    unpack .binary64 (pack .binary64 (.infinity .positive)) = .infinity .positive := rfl

/-- A sum is infinite when its first term is, and the second one is not negative. -/
theorem add_infinite_left (ha : a.toModel.unpack = .infinity .positive) (hb : (0.0 : Float) ≤ b) :
    (a + b).toModel.unpack = .infinity .positive := by
  show unpack .binary64 (pack .binary64
    (UnpackedFloat.add .binary64 a.toModel.unpack b.toModel.unpack)) = _
  rw [ha]
  rcases finite_or_infinite hb with ⟨hfinite, hnonneg⟩ | hinfinite
  · rcases zero_or_positive hfinite hnonneg with ⟨s, hzero⟩ | ⟨m, e, hm, hpositive⟩
    · rw [hzero]
      exact unpack_pack_infinity
    · rw [hpositive]
      exact unpack_pack_infinity
  · rw [hinfinite]
    exact unpack_pack_infinity

/-- So it is when the second one is, after a finite term. -/
theorem add_infinite_right (ha : a.isFinite = true) (hnonneg : 0 ≤ value a)
    (hb : b.toModel.unpack = .infinity .positive) :
    (a + b).toModel.unpack = .infinity .positive := by
  show unpack .binary64 (pack .binary64
    (UnpackedFloat.add .binary64 a.toModel.unpack b.toModel.unpack)) = _
  rw [hb]
  rcases zero_or_positive ha hnonneg with ⟨s, hzero⟩ | ⟨m, e, hm, hpositive⟩
  · rw [hzero]
    exact unpack_pack_infinity
  · rw [hpositive]
    exact unpack_pack_infinity

/-- What is not negative leads to no lesser number when it is added. -/
theorem le_add (ha : (0.0 : Float) ≤ a) (hb : (0.0 : Float) ≤ b) : a ≤ a + b := by
  have hnumber : a.isNaN = false := (LawfulComparison.numbers_of_le ha).2
  rcases finite_or_infinite ha with ⟨hafinite, hanonneg⟩ | hinfinite
  · rcases finite_or_infinite hb with ⟨hbfinite, hbnonneg⟩ | hinfinite
    · have hsum := isRounded_add hafinite hbfinite (add_nonneg hanonneg hbnonneg)
      exact (isRounded_value hafinite hanonneg).mono hsum (le_add_of_nonneg_right hbnonneg)
    · exact le_of_infinite hnumber (add_infinite_right hafinite hanonneg hinfinite)
  · exact le_of_infinite hnumber (add_infinite_left hinfinite hb)

/-- The end of the whole numbers that all are doubles. -/
theorem value_wholeTo : value 9007199254740992.0 = 2 ^ 53 := by
  rw [value_of_positive (m := 2 ^ 52) (e := 1) rfl]
  norm_num

/-- Up to there they are. -/
theorem exists_value_eq_natCast {n : ℕ} (hn : n ≤ 2 ^ 53) :
    ∃ c : Float, c.isFinite = true ∧ value c = n := by
  rcases Nat.lt_or_eq_of_le hn with hlt | rfl
  · exact ⟨Float.ofNat n, value_ofNat hlt⟩
  · refine ⟨9007199254740992.0, by decide, ?_⟩
    rw [value_wholeTo]
    norm_num

/-- A step of one or more leads to a greater number from everywhere below `2 ^ 53`. -/
theorem lt_add_of_one_le (ha : (0.0 : Float) ≤ a) (hlt : a < 9007199254740992.0)
    (hb : (1.0 : Float) ≤ b) : a < a + b := by
  have hb' : (0.0 : Float) ≤ b := LawfulComparison.le_trans (by decide) hb
  rcases finite_or_infinite ha with ⟨hafinite, hanonneg⟩ | hinfinite
  swap
  · exact absurd (LawfulComparison.le_of_lt hlt) (not_le_of_infinite (by decide) hinfinite)
  rcases finite_or_infinite hb' with ⟨hbfinite, -⟩ | hinfinite
  swap
  · have hsum := add_infinite_right hafinite hanonneg hinfinite
    exact LawfulComparison.lt_iff.mpr
      ⟨le_of_infinite (isNaN_of_isFinite hafinite) hsum, not_le_of_infinite hafinite hsum⟩
  -- The first whole number above `a` is a double, and the exact sum does not fall short of it.
  have hbound : value a < 2 ^ 53 := by
    rw [← value_wholeTo]
    exact (lt_iff_value hafinite (by decide)).mp hlt
  have hone : 1 ≤ value b := by
    rw [← value_one]
    exact (le_iff_value (by decide) hbfinite).mp hb
  have hfloor : ⌊value a⌋₊ + 1 ≤ 2 ^ 53 :=
    Nat.succ_le_of_lt ((Nat.floor_lt hanonneg).mpr (by exact_mod_cast hbound))
  obtain ⟨c, hcfinite, hc⟩ := exists_value_eq_natCast hfloor
  have hac : value a < value c := by
    rw [hc, Nat.cast_add, Nat.cast_one]
    exact Nat.lt_floor_add_one _
  have hcsum : value c ≤ value a + value b := by
    have hle := Nat.floor_le hanonneg
    rw [hc, Nat.cast_add, Nat.cast_one]
    linarith
  have hsum := isRounded_add hafinite hbfinite (by linarith)
  have hcnonneg : 0 ≤ value c := hc ▸ Nat.cast_nonneg _
  exact LawfulComparison.lt_of_lt_of_le ((lt_iff_value hafinite hcfinite).mpr hac)
    ((isRounded_value hcfinite hcnonneg).mono hsum hcsum)

end FlightPlan.Binary64
