import FlightPlan.Proofs.Binary64.Comparison
import FlightPlan.Proofs.Scalar.Comparison
import FlightPlan.Tier

/-!
# `FlightPlan.Proofs.Tier`: what valid thresholds promise

`Limits.isValid` looks for faults one by one. `isValid_iff` says what it means
that there is none, and `ascending_of_isValid` what that gives where comparison
is lawful: the speeds ascend from zero to the ceiling. Then a speed above the
ceiling is in the last tier (`tier_of_ceiling_lt`), which the tiers alone would
not promise, for they do not know the ceiling.

That a faster speed is in no lower tier needs no valid thresholds (`tier_mono`).
The tiers are told apart by going through the bounds from below, and whichever
bound the faster speed gets past, the slower one gets past as well. Bounds in the
wrong order only leave tiers empty. `tiers_ascend_with_speed` puts this together
with what valid thresholds add.
-/

set_option autoImplicit false

namespace FlightPlan.Limits

variable {α : Type} [Scalar α] {limits : Limits α} {speed : α}

/-- Every threshold has its name in the list of all names. -/
theorem Name.mem_all (name : Name) : name ∈ Name.all := by
  cases name <;> decide

/-- Thresholds are valid when all are finite, none is negative, and none is above the one
that should bound it. -/
theorem isValid_iff :
    limits.isValid = true ↔
      (∀ name, Scalar.isFinite (limits.get name) = true) ∧ ¬ limits.meaningful < 0.0
        ∧ ∀ pair ∈ ascending, ¬ limits.get pair.2 < limits.get pair.1 := by
  rw [isValid, faults, List.isEmpty_iff, List.append_eq_nil_iff, List.append_eq_nil_iff,
    and_assoc, List.map_eq_nil_iff, List.filter_eq_nil_iff, List.filterMap_eq_nil_iff]
  refine and_congr ?_ (and_congr ?_ ?_)
  · constructor
    · intro h name
      simpa using h name name.mem_all
    · intro h name _
      simp [h name]
  · by_cases h : limits.meaningful < 0.0
    · simp [h]
    · simp [h]
  · refine forall₂_congr fun pair _ => ?_
    by_cases h : limits.get pair.2 < limits.get pair.1
    · simp [h]
    · simp [h]

/-- There is no severity above the last tier. -/
theorem le_impossible (tier : Tier) : tier ≤ .impossible := by
  cases tier <;> decide

/-- A number that is not below the least meaningful speed is told apart by the other bounds. -/
theorem tier_of_meaningful (hnumber : Scalar.isNaN speed = false)
    (hmeaningful : ¬ speed < limits.meaningful) :
    limits.tier speed =
      if speed ≤ limits.feasible then .feasible
      else if speed ≤ limits.marginal then .marginal
      else .impossible := by
  rw [tier, if_neg]
  rintro (hnan | hbelow)
  · rw [hnumber] at hnan
    exact Bool.false_ne_true hnan
  · exact hmeaningful hbelow

/-- Up to the greatest feasible speed there are no more than two tiers. -/
theorem tier_of_le_feasible (h : speed ≤ limits.feasible) :
    limits.tier speed = .unknown ∨ limits.tier speed = .feasible := by
  by_cases hunknown : Scalar.isNaN speed = true ∨ speed < limits.meaningful
  · exact .inl (if_pos hunknown)
  · exact .inr (by rw [tier, if_neg hunknown, if_pos h])

variable [LawfulComparison α]

open LawfulComparison

/-- Valid thresholds are numbers. -/
theorem isNaN_get_of_isValid (h : limits.isValid = true) (name : Name) :
    Scalar.isNaN (limits.get name) = false :=
  isNaN_of_isFinite ((isValid_iff.mp h).1 name)

/-- Valid speeds ascend from zero. -/
theorem ascending_of_isValid (h : limits.isValid = true) :
    0.0 ≤ limits.meaningful ∧ limits.meaningful ≤ limits.feasible
      ∧ limits.feasible ≤ limits.marginal ∧ limits.marginal ≤ limits.ceiling := by
  obtain ⟨-, hzero, hpairs⟩ := isValid_iff.mp h
  have hstep {pair : Name × Name} (hpair : pair ∈ ascending) :
      limits.get pair.1 ≤ limits.get pair.2 :=
    le_of_not_lt (isNaN_get_of_isValid h pair.1) (isNaN_get_of_isValid h pair.2)
      (hpairs pair hpair)
  refine ⟨le_of_not_lt isNaN_zero (isNaN_get_of_isValid h .meaningful) hzero, ?_, ?_, ?_⟩
  · exact hstep (show (.meaningful, .feasible) ∈ ascending by decide)
  · exact hstep (show (.feasible, .marginal) ∈ ascending by decide)
  · exact hstep (show (.marginal, .ceiling) ∈ ascending by decide)

/-- A valid ceiling is not below zero. -/
theorem not_ceiling_lt_zero (h : limits.isValid = true) : ¬ limits.ceiling < 0.0 := by
  obtain ⟨hzero, hfeasible, hmarginal, hceiling⟩ := ascending_of_isValid h
  intro hneg
  exact not_le_of_lt hneg (le_trans hzero (le_trans hfeasible (le_trans hmarginal hceiling)))

/-- Under valid thresholds, a speed above the ceiling is in the last tier. -/
theorem tier_of_ceiling_lt (h : limits.isValid = true) (hspeed : limits.ceiling < speed) :
    limits.tier speed = .impossible := by
  obtain ⟨-, hfeasible, hmarginal, hceiling⟩ := ascending_of_isValid h
  have hmarginalspeed : limits.marginal < speed := lt_of_le_of_lt hceiling hspeed
  have hfeasiblespeed : limits.feasible < speed := lt_of_le_of_lt hmarginal hmarginalspeed
  have hmeaningfulspeed : limits.meaningful < speed := lt_of_le_of_lt hfeasible hfeasiblespeed
  have hmeaningful : ¬ speed < limits.meaningful := fun h =>
    not_le_of_lt h (le_of_lt hmeaningfulspeed)
  rw [tier_of_meaningful (numbers_of_lt hspeed).2 hmeaningful,
    if_neg (not_le_of_lt hfeasiblespeed), if_neg (not_le_of_lt hmarginalspeed)]

/-! ### Tiers ascend with speed -/

/-- A faster speed is in no lower tier, whatever the thresholds are. -/
theorem tier_mono {a b : α} (hab : a ≤ b) : limits.tier a ≤ limits.tier b := by
  obtain ⟨ha, hb⟩ := numbers_of_le hab
  by_cases hunknown : a < limits.meaningful
  · have htier : limits.tier a = .unknown := by rw [tier, if_pos (Or.inr hunknown)]
    rw [htier]
    exact Nat.zero_le _
  -- A bound that is passed by `a` is passed by `b`.
  have hmeaningful : ¬ b < limits.meaningful := fun h => hunknown (lt_of_le_of_lt hab h)
  have hfeasible : b ≤ limits.feasible → a ≤ limits.feasible := le_trans hab
  have hmarginal : b ≤ limits.marginal → a ≤ limits.marginal := le_trans hab
  rw [tier_of_meaningful ha hunknown, tier_of_meaningful hb hmeaningful]
  by_cases hfast : b ≤ limits.feasible
  · rw [if_pos hfast, if_pos (hfeasible hfast)]
    decide
  rw [if_neg hfast]
  by_cases hfaster : b ≤ limits.marginal
  · rw [if_pos hfaster, if_pos (hmarginal hfaster)]
    split <;> decide
  · rw [if_neg hfaster]
    exact le_impossible _

/-- Between the least meaningful and the greatest feasible speed, a speed is feasible. -/
theorem tier_eq_feasible (hmeaningful : limits.meaningful ≤ speed)
    (hfeasible : speed ≤ limits.feasible) : limits.tier speed = .feasible := by
  have hnumber := (numbers_of_le hmeaningful).2
  rw [tier_of_meaningful hnumber fun h => not_le_of_lt h hmeaningful, if_pos hfeasible]

/-- Thresholds are without fault exactly when they are finite and the speeds among them ascend
from zero. -/
theorem faults_eq_nil_iff :
    limits.faults = [] ↔
      (∀ name, Scalar.isFinite (limits.get name) = true) ∧ 0.0 ≤ limits.meaningful
        ∧ limits.meaningful ≤ limits.feasible ∧ limits.feasible ≤ limits.marginal
        ∧ limits.marginal ≤ limits.ceiling := by
  rw [← List.isEmpty_iff]
  show limits.isValid = true ↔ _
  constructor
  · intro h
    exact ⟨(isValid_iff.mp h).1, ascending_of_isValid h⟩
  · rintro ⟨hfinite, hzero, hfeasible, hmarginal, hceiling⟩
    refine isValid_iff.mpr ⟨hfinite, fun hneg => not_le_of_lt hneg hzero, ?_⟩
    intro pair hpair
    simp only [ascending, List.mem_cons, List.not_mem_nil, or_false] at hpair
    obtain rfl | rfl | rfl := hpair
    · exact fun h => not_le_of_lt h hfeasible
    · exact fun h => not_le_of_lt h hmarginal
    · exact fun h => not_le_of_lt h hceiling

/-- Thresholds are without fault exactly when all are finite and the speeds ascend from zero.
Under any thresholds a faster speed is in no lower tier. Under thresholds without fault a speed
above the ceiling is in the last tier, and a meaningful speed up to the greatest feasible one is
feasible. -/
theorem tiers_ascend_with_speed (limits : Limits α) :
    (limits.faults = [] ↔
        (∀ name, Scalar.isFinite (limits.get name) = true) ∧ 0.0 ≤ limits.meaningful
          ∧ limits.meaningful ≤ limits.feasible ∧ limits.feasible ≤ limits.marginal
          ∧ limits.marginal ≤ limits.ceiling)
      ∧ (∀ a b : α, a ≤ b → limits.tier a ≤ limits.tier b)
      ∧ (limits.faults = [] → ∀ speed,
          (limits.exceedsCeiling speed = true → limits.tier speed = .impossible)
            ∧ (limits.meaningful ≤ speed → speed ≤ limits.feasible →
                limits.tier speed = .feasible)) := by
  refine ⟨faults_eq_nil_iff, fun _ _ hab => tier_mono hab, fun hfaults speed => ⟨?_, ?_⟩⟩
  · intro hexceeds
    exact tier_of_ceiling_lt (List.isEmpty_iff.mpr hfaults) (of_decide_eq_true hexceeds)
  · exact tier_eq_feasible

/-- The standard thresholds, at their bounds and beyond the ceiling. -/
theorem tiers_ascend_standard :
    (Limits.standard : Limits Float).faults = []
      ∧ Limits.standard.tier (12.0 : Float) ≤ Limits.standard.tier (12.1 : Float)
      ∧ Limits.standard.tier (0.1 : Float) = .feasible
      ∧ Limits.standard.tier (30.5 : Float) = .impossible := by
  obtain ⟨hfaults, hmono, htiers⟩ := tiers_ascend_with_speed (Limits.standard : Limits Float)
  have hnone : (Limits.standard : Limits Float).faults = [] :=
    hfaults.mpr ⟨fun name => by cases name <;> decide, by decide, by decide, by decide, by decide⟩
  exact ⟨hnone, hmono _ _ (by decide), (htiers hnone 0.1).2 (by decide) (by decide),
    (htiers hnone 30.5).1 (by decide)⟩

end FlightPlan.Limits
