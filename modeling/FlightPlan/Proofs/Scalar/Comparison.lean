import FlightPlan.Scalar

/-!
# `FlightPlan.Proofs.Scalar.Comparison`: numbers that compare as they should

`Scalar` asks for comparisons but for no law about them. `LawfulComparison` names
the laws that theorems about thresholds use: those numbers that are not `isNaN`
are totally ordered, `isNaN` compares with nothing, and what is finite is not
`isNaN`. Doubles have them (`FlightPlan.Proofs.Binary64.Comparison`).

`lt_fmax_iff` and `lt_foldl_fmax_iff` say what a greatest number is good for:
something is below it exactly when it is below one of the numbers it was taken
from. Those that are not numbers drop out on both sides. `Extreme` says of the
greatest number and of the least alike which number that is.
-/

set_option autoImplicit false

namespace FlightPlan

open Scalar (isNaN isFinite fmax fmin clamp)

/-- Comparison is a total order on numbers, and nothing else compares. -/
class LawfulComparison (α : Type) [Scalar α] : Prop where
  /-- What is not a number compares with nothing. -/
  numbers_of_le {a b : α} (h : a ≤ b) : isNaN a = false ∧ isNaN b = false
  le_total {a b : α} (ha : isNaN a = false) (hb : isNaN b = false) : a ≤ b ∨ b ≤ a
  le_trans {a b c : α} (hab : a ≤ b) (hbc : b ≤ c) : a ≤ c
  lt_iff {a b : α} : a < b ↔ a ≤ b ∧ ¬ b ≤ a
  isNaN_of_isFinite {a : α} (h : isFinite a = true) : isNaN a = false
  isNaN_zero : isNaN (0.0 : α) = false

namespace LawfulComparison

variable {α : Type} [Scalar α] [LawfulComparison α] {a b c : α}

/-- What is less is at most as great. -/
theorem le_of_lt (h : a < b) : a ≤ b :=
  (lt_iff.mp h).1

/-- The greater of two numbers is not at most the lesser. -/
theorem not_le_of_lt (h : a < b) : ¬ b ≤ a :=
  (lt_iff.mp h).2

/-- Only numbers are less or greater. -/
theorem numbers_of_lt (h : a < b) : isNaN a = false ∧ isNaN b = false :=
  numbers_of_le (le_of_lt h)

/-- What is less than a number is less than everything that is at least this number. -/
theorem lt_of_lt_of_le (hab : a < b) (hbc : b ≤ c) : a < c :=
  lt_iff.mpr ⟨le_trans (le_of_lt hab) hbc, fun hca => not_le_of_lt hab (le_trans hbc hca)⟩

/-- What is at most a number is less than everything that is greater than this number. -/
theorem lt_of_le_of_lt (hab : a ≤ b) (hbc : b < c) : a < c :=
  lt_iff.mpr ⟨le_trans hab (le_of_lt hbc), fun hca => not_le_of_lt hbc (le_trans hca hab)⟩

/-- Of two numbers, one that is not below the other is above it or equal to it. -/
theorem le_of_not_lt (ha : isNaN a = false) (hb : isNaN b = false) (h : ¬ b < a) : a ≤ b := by
  rcases le_total ha hb with hab | hba
  · exact hab
  · by_cases hab : a ≤ b
    · exact hab
    · exact absurd (lt_iff.mpr ⟨hba, hab⟩) h

/-- Nothing is below what is not a number. -/
theorem not_lt_of_isNaN (h : isNaN b = true) : ¬ a < b := by
  intro hab
  rw [(numbers_of_lt hab).2] at h
  exact nomatch h

/-- A number is at most itself. -/
theorem le_refl (h : isNaN a = false) : a ≤ a :=
  (le_total h h).elim id id

/-- A number is brought between two bounds that are in order. -/
theorem clamp_mem {low high x : α} (hle : low ≤ high) (hx : isNaN x = false) :
    low ≤ clamp low high x ∧ clamp low high x ≤ high := by
  obtain ⟨hlow, hhigh⟩ := numbers_of_le hle
  unfold clamp
  split
  · exact ⟨le_refl hlow, hle⟩
  rename_i hbelow
  split
  · exact ⟨hle, le_refl hhigh⟩
  · rename_i habove
    exact ⟨le_of_not_lt hlow hx hbelow, le_of_not_lt hx hhigh habove⟩

/-! ### The greatest number -/

/-- Below the greater of two numbers is what is below one of them. -/
theorem lt_fmax_iff : c < fmax a b ↔ c < a ∨ c < b := by
  unfold fmax
  by_cases ha : isNaN a = true
  · -- Nothing is below `a`, which gives way.
    rw [if_pos ha]
    exact (or_iff_right (not_lt_of_isNaN ha)).symm
  · rw [if_neg ha]
    rw [Bool.not_eq_true] at ha
    split
    · rename_i hkept
      refine ⟨Or.inl, ?_⟩
      rintro (hca | hcb)
      · exact hca
      · rcases hkept with hb | hba
        · exact absurd hcb (not_lt_of_isNaN hb)
        · exact lt_of_lt_of_le hcb (le_of_lt hba)
    · rename_i hkept
      obtain ⟨hb, hba⟩ := not_or.mp hkept
      rw [Bool.not_eq_true] at hb
      refine ⟨Or.inr, ?_⟩
      rintro (hca | hcb)
      · exact lt_of_lt_of_le hca (le_of_not_lt ha hb hba)
      · exact hcb

/-- Below the greatest of some numbers is what is below one of them. -/
theorem lt_foldl_fmax_iff {numbers : List α} :
    c < numbers.foldl fmax a ↔ c < a ∨ ∃ x ∈ numbers, c < x := by
  induction numbers generalizing a with
  | nil => simp
  | cons first rest ih =>
      rw [List.foldl_cons, ih, lt_fmax_iff, or_assoc]
      simp only [List.mem_cons, exists_eq_or_imp]

end LawfulComparison

/-! ### The number that was chosen -/

section
variable {α : Type} [Scalar α]

/-- From any two `f` chooses one, and every number among them leads to the one chosen. Where a
number leads is what `R` says: up for the greatest, down for the least. -/
structure Extreme (R : α → α → Prop) (f : α → α → α) : Prop where
  eq_or_eq (a b : α) : f a b = a ∨ f a b = b
  left {a : α} (ha : isNaN a = false) (b : α) : R a (f a b)
  right (a : α) {b : α} (hb : isNaN b = false) : R b (f a b)
  number {a b : α} (h : R a b) : isNaN b = false
  trans {a b c : α} (hab : R a b) (hbc : R b c) : R a c

namespace Extreme

variable {R : α → α → Prop} {f : α → α → α}

/-- What is not a number gives way, and of two numbers the one that `R` leads to is chosen. -/
theorem of_choice (P : α → α → Prop) [DecidableRel P]
    (hf : ∀ a b, f a b = if isNaN a then b else if isNaN b ∨ P a b then a else b)
    (hfirst : ∀ {a b}, P a b → R b a)
    (hsecond : ∀ {a b}, isNaN a = false → isNaN b = false → ¬ P a b → R a b)
    (hrefl : ∀ {a}, isNaN a = false → R a a) (hnumber : ∀ {a b}, R a b → isNaN b = false)
    (htrans : ∀ {a b c}, R a b → R b c → R a c) : Extreme R f where
  eq_or_eq a b := by
    rw [hf]
    split
    · exact .inr rfl
    · split
      · exact .inl rfl
      · exact .inr rfl
  -- A number `a` gives way only to a number that `R` leads to from it.
  left {a} ha b := by
    rw [hf, if_neg (by rw [ha]; exact Bool.false_ne_true)]
    split
    · exact hrefl ha
    · rename_i hkept
      obtain ⟨hb, hab⟩ := not_or.mp hkept
      exact hsecond ha (Bool.not_eq_true _ ▸ hb) hab
  right a {b} hb := by
    rw [hf, hb]
    split
    · exact hrefl hb
    · split
      · rename_i hkept
        exact hfirst (hkept.resolve_left Bool.false_ne_true)
      · exact hrefl hb
  number := hnumber
  trans := htrans

/-- A number leads to itself. -/
theorem refl (h : Extreme R f) {a : α} (ha : isNaN a = false) : R a a := by
  have hleft := h.left ha a
  rwa [(h.eq_or_eq a a).elim id id] at hleft

/-- Taking numbers together chooses the one to start with or one of the others. -/
theorem foldl_mem (h : Extreme R f) (a : α) (numbers : List α) :
    numbers.foldl f a ∈ a :: numbers := by
  induction numbers generalizing a with
  | nil => exact List.mem_singleton_self a
  | cons first rest ih =>
      rw [List.foldl_cons]
      rcases List.mem_cons.mp (ih (f a first)) with heq | hmem
      · rw [heq]
        rcases h.eq_or_eq a first with hchosen | hchosen
        · rw [hchosen]
          exact List.mem_cons_self
        · rw [hchosen]
          exact List.mem_cons_of_mem _ List.mem_cons_self
      · exact List.mem_cons_of_mem _ (List.mem_cons_of_mem _ hmem)

/-- Each number leads to the one that is chosen. -/
theorem foldl_bound (h : Extreme R f) {a : α} {numbers : List α} {x : α}
    (hx : x ∈ a :: numbers) (hnumber : isNaN x = false) : R x (numbers.foldl f a) := by
  induction numbers generalizing a x with
  | nil =>
      obtain rfl := List.mem_singleton.mp hx
      exact h.refl hnumber
  | cons first rest ih =>
      rw [List.foldl_cons]
      -- A number among the first two leads to the one kept of them, which the rest starts with.
      have hkept {y : α} (hy : R y (f a first)) : R y (rest.foldl f (f a first)) :=
        h.trans hy (ih List.mem_cons_self (h.number hy))
      rcases List.mem_cons.mp hx with rfl | hx
      · exact hkept (h.left hnumber first)
      · rcases List.mem_cons.mp hx with rfl | hx
        · exact hkept (h.right a hnumber)
        · exact ih (List.mem_cons_of_mem _ hx) hnumber

variable [LawfulComparison α]

/-- The greater of two is what all numbers among them are not above. -/
theorem of_fmax : Extreme (α := α) (· ≤ ·) fmax :=
  of_choice (fun a b => b < a) (fun _ _ => rfl) LawfulComparison.le_of_lt
    LawfulComparison.le_of_not_lt LawfulComparison.le_refl
    (fun h => (LawfulComparison.numbers_of_le h).2) LawfulComparison.le_trans

/-- The lesser of two is what all numbers among them are not below. -/
theorem of_fmin : Extreme (α := α) (· ≥ ·) fmin :=
  of_choice (fun a b => a < b) (fun _ _ => rfl) LawfulComparison.le_of_lt
    (fun ha hb h => LawfulComparison.le_of_not_lt hb ha h) LawfulComparison.le_refl
    (fun h => (LawfulComparison.numbers_of_le h).1)
    (fun hab hbc => LawfulComparison.le_trans hbc hab)

end Extreme

end

end FlightPlan
