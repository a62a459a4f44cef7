import FlightPlan.Proofs.Command.Generate
import FlightPlan.Proofs.Plan.Speeds
import FlightPlan.Proofs.Report
import FlightPlan.Proofs.Scalar.Exact
import FlightPlan.Proofs.Scatter.Loop

/-!
# `FlightPlan.Proofs.Scatter.Cruise`: demonstrations keep to their cruise speed

A demonstration gives each leg the seconds it takes at cruise speed, rounded up, some hovering, and
one second at least. None of this makes a leg shorter in time, so no leg has to be flown faster
(`length_div_legTime_le`). This is arithmetic without rounding, and so it is stated in rational
numbers, and for every Earth on which no leg has a negative length.

The speed that a leg requires is computed elsewhere, from positions, altitudes and times, and kept
to one decimal. So it is compared with the cruise speed kept to one decimal (`required_le`).
`keeps_to_cruise_speed` goes on from there to the tiers of the waypoints and to the report: when
the cruise speed is feasible under valid limits, so is the demonstration, and its report is valid.
-/

set_option autoImplicit false

namespace FlightPlan

open Legs (IsLeg recompute)

namespace Speed

/-- Over a time that is not zero or less, the required speed is the quotient, to one decimal. -/
theorem ofLength_of_pos {length duration : ℚ} (h : 0 < duration) :
    ofLength length duration = Scalar.roundTenth (length / duration) := by
  have hlate : ¬ duration ≤ 0.0 := by
    rw [Scalar.decimal_zero]
    exact not_le.mpr h
  have hfinite (x : ℚ) : Scalar.isFinite x = true := rfl
  simp only [ofLength, hfinite, if_neg hlate, Bool.not_true, Bool.false_eq_true, if_false]

end Speed

namespace Scatter

variable {s : Scatter ℚ}

/-! ### The time of a leg -/

/-- A leg is given a second, and the time it takes at cruise speed. -/
theorem legTime_eq_max (s : Scatter ℚ) (length : ℚ) :
    s.legTime length = max (⌈length / max s.cruiseSpeed 0.1⌉ + s.hover) 1.0 := by
  simp only [legTime, Scalar.fmax_eq_max]
  rfl

/-- Whatever time a leg would take, it is given a second. -/
theorem one_le_legTime_exact (s : Scatter ℚ) (length : ℚ) : 1 ≤ s.legTime length := by
  rw [legTime_eq_max]
  have hone : (1 : ℚ) ≤ 1.0 := by norm_num
  exact hone.trans (le_max_right _ _)

/-- No leg is too long for its time. -/
theorem length_div_legTime_le (hcruise : 0.1 ≤ s.cruiseSpeed) (hhover : 0.0 ≤ s.hover)
    (length : ℚ) : length / s.legTime length ≤ s.cruiseSpeed := by
  have hleast : (0 : ℚ) < 0.1 := by norm_num
  have hpos : 0 < s.cruiseSpeed := hleast.trans_le hcruise
  have htime : 0 < s.legTime length := zero_lt_one.trans_le (one_le_legTime_exact s length)
  have hflown : length / s.cruiseSpeed ≤ s.legTime length := by
    calc
      length / s.cruiseSpeed ≤ ⌈length / s.cruiseSpeed⌉ := Int.le_ceil _
      _ ≤ ⌈length / s.cruiseSpeed⌉ + s.hover := le_add_of_nonneg_right (by linarith)
      _ ≤ max (⌈length / s.cruiseSpeed⌉ + s.hover) 1.0 := le_max_left _ _
      _ = s.legTime length := by rw [legTime_eq_max, max_eq_left hcruise]
  rwa [div_le_iff₀ htime, mul_comm, ← div_le_iff₀ hpos]

/-! ### The legs of a demonstration -/

section
variable [Geodesy ℚ] {ids : FreshIds} {home : Position ℚ} {units : Nat → ℚ} {count : Nat}
  {waypoints : List (Waypoint ℚ)} {origin goal : Target ℚ}

/-- In rational numbers a demonstration can always be drawn. -/
theorem exists_waypoints (s : Scatter ℚ) (ids : FreshIds) (home : Position ℚ) (units : Nat → ℚ)
    (count : Nat) : ∃ waypoints, s.waypoints ids home units count = some waypoints := by
  have hdrawable : s.Drawable := ⟨rfl, rfl, fun _ => rfl⟩
  obtain ⟨d, hd⟩ := exists_draft home units hdrawable count
  exact ⟨_, by rw [waypoints_eq_draft, hd, Option.map_some]⟩

/-- The time between the ends of a leg is the time that the leg is given. -/
theorem time_sub_eq_legTime (h : s.waypoints ids home units count = some waypoints)
    (hleg : IsLeg waypoints origin goal) :
    goal.time - origin.time = s.legTime (Speed.length origin goal) := by
  obtain ⟨i, v, w, hv, hw, rfl, rfl⟩ := Legs.isLeg_iff.mp hleg
  rw [time_eq_add_legTime h hv hw, add_sub_cancel_left]

/-- The speed that a leg requires is its length over the time it is given, to one decimal. -/
theorem required_eq (h : s.waypoints ids home units count = some waypoints)
    (hleg : IsLeg waypoints origin goal) :
    Speed.required origin goal
      = Scalar.roundTenth (Speed.length origin goal / s.legTime (Speed.length origin goal)) := by
  have htime : goal.time - Speed.startTime origin = s.legTime (Speed.length origin goal) :=
    time_sub_eq_legTime h hleg
  rw [Speed.required, htime]
  exact Speed.ofLength_of_pos (zero_lt_one.trans_le (one_le_legTime_exact s _))

/-- So it is not above the cruise speed, to one decimal. -/
theorem required_le (h : s.waypoints ids home units count = some waypoints)
    (hcruise : 0.1 ≤ s.cruiseSpeed) (hhover : 0.0 ≤ s.hover)
    (hleg : IsLeg waypoints origin goal) (hlength : 0 ≤ Speed.length origin goal) :
    Speed.required origin goal ≤ Scalar.roundTenth s.cruiseSpeed := by
  have htime := one_le_legTime_exact s (Speed.length origin goal)
  rw [required_eq h hleg]
  exact Scalar.roundTenth_mono (div_nonneg hlength (zero_le_one.trans htime))
    (length_div_legTime_le hcruise hhover _)

/-- Every waypoint stores the speed of a leg, or none if it is on its own. -/
theorem speed_of_mem (h : s.waypoints ids home units count = some waypoints) {w : Waypoint ℚ}
    (hw : w ∈ waypoints) :
    w.leg.speed = 0.0
      ∨ ∃ origin goal, IsLeg waypoints origin goal ∧ w.leg.speed = Speed.required origin goal := by
  have hcurrent := recompute_waypoints h
  obtain ⟨i, hi⟩ := List.getElem?_of_mem hw
  rcases Nat.lt_or_ge waypoints.length 2 with hshort | hlong
  · have hstored : (recompute Limits.standard waypoints)[i]? = some w := by rwa [hcurrent]
    exact .inl ((Legs.storesLeg_recompute hi hstored).alone hshort).1
  · obtain ⟨origin, goal, hreports⟩ :=
      Legs.exists_reports hlong (List.getElem?_eq_some_iff.mp hi).1
    exact .inr ⟨origin, goal, Legs.exists_reports_iff.mp ⟨i, hreports⟩,
      Legs.speed_of_reports hcurrent hi hreports⟩

/-- On an Earth without negative lengths there is a demonstration of each number of waypoints, and
none of its legs has to be flown faster than at cruise speed, or than at cruise speed to one
decimal where the speed is kept to one. If that is feasible under valid limits, every waypoint is
feasible or has no meaningful speed, and the report on the demonstration is valid. -/
theorem keeps_to_cruise_speed (s : Scatter ℚ) (ids : FreshIds) (home : Position ℚ)
    (units : Nat → ℚ) (count : Nat)
    (hlength : ∀ (p q : Position ℚ) (a b : ℚ), 0 ≤ Geodesy.legDistance p a q b)
    (hcruise : 0.1 ≤ s.cruiseSpeed) (hhover : 0.0 ≤ s.hover) :
    ∃ waypoints, s.waypoints ids home units count = some waypoints ∧ waypoints.length = count
      ∧ (∀ origin goal, IsLeg waypoints origin goal →
          origin.time < goal.time
            ∧ Speed.length origin goal / (goal.time - origin.time) ≤ s.cruiseSpeed
            ∧ Speed.required origin goal ≤ Scalar.roundTenth s.cruiseSpeed)
      ∧ ∀ limits : Limits ℚ, limits.isValid = true →
          Scalar.roundTenth s.cruiseSpeed ≤ limits.feasible →
            (∀ w ∈ waypoints,
                limits.tier w.leg.speed = .unknown ∨ limits.tier w.leg.speed = .feasible)
              ∧ (Report.ofSequence limits waypoints).valid = true := by
  obtain ⟨waypoints, h⟩ := exists_waypoints s ids home units count
  have hlegs (origin goal : Target ℚ) (hleg : IsLeg waypoints origin goal) :
      origin.time < goal.time
        ∧ Speed.length origin goal / (goal.time - origin.time) ≤ s.cruiseSpeed
        ∧ Speed.required origin goal ≤ Scalar.roundTenth s.cruiseSpeed := by
    have htime := time_sub_eq_legTime h hleg
    refine ⟨?_, ?_, required_le h hcruise hhover hleg (hlength _ _ _ _)⟩
    · have hsecond := one_le_legTime_exact s (Speed.length origin goal)
      linarith
    · rw [htime]
      exact length_div_legTime_le hcruise hhover _
  refine ⟨waypoints, h, length_waypoints h, hlegs, ?_⟩
  intro limits hvalid hfeasible
  obtain ⟨hzero, hmeaningful, hmarginal, hceiling⟩ := Limits.ascending_of_isValid hvalid
  constructor
  · intro w hw
    refine Limits.tier_of_le_feasible ?_
    rcases speed_of_mem h hw with halone | ⟨origin, goal, hleg, hspeed⟩
    · rw [halone]
      exact hzero.trans hmeaningful
    · rw [hspeed]
      exact (hlegs origin goal hleg).2.2.trans hfeasible
  · rw [Report.valid_ofSequence_iff]
    refine ⟨fun origin goal hleg => (hlegs origin goal hleg).1, ?_⟩
    intro origin goal hleg
    have hrequired := (hlegs origin goal hleg).2.2
    exact not_lt.mpr (hrequired.trans (hfeasible.trans (hmarginal.trans hceiling)))

end

/-- Up and down in one place a leg is as long as the altitudes differ. -/
@[reducible] def plumb : Geodesy ℚ where
  legDistance _ a _ b := |b - a|
  bearing _ _ := 0
  offset p _ _ := p

/-- Numbers by which the second waypoint is put above home, halfway up the altitude band, and the
third one back on it. -/
def hoverUnits (n : Nat) : ℚ :=
  if n = 2 then 1 / 2 else 0

/-- Up and down again: both legs keep to eight meters per second, and the report is valid. -/
theorem keeps_to_cruise_speed_hover :
    letI := plumb
    (∀ (p q : Position ℚ) (a b : ℚ), 0 ≤ Geodesy.legDistance p a q b)
      ∧ (0.1 : ℚ) ≤ (standard : Scatter ℚ).cruiseSpeed ∧ (0.0 : ℚ) ≤ (standard : Scatter ℚ).hover
      ∧ ∃ waypoints, standard.waypoints Legs.idOf ⟨0, 0⟩ hoverUnits 3 = some waypoints
        ∧ waypoints.map (fun w => (w.target.altitude, w.target.time, w.leg.speed))
            = [(50, 0, 4), (70, 5, 4), (50, 10, 4)]
        ∧ (∀ w ∈ waypoints, Limits.standard.tier w.leg.speed = .unknown
            ∨ Limits.standard.tier w.leg.speed = .feasible)
        ∧ (Report.ofSequence Limits.standard waypoints).valid = true := by
  let _ := plumb
  have hlength : ∀ (p q : Position ℚ) (a b : ℚ), 0 ≤ Geodesy.legDistance p a q b :=
    fun _ _ a b => abs_nonneg (b - a)
  have hcruise : (0.1 : ℚ) ≤ (standard : Scatter ℚ).cruiseSpeed := by
    norm_num [standard]
  have hhover : (0.0 : ℚ) ≤ (standard : Scatter ℚ).hover := by
    norm_num [standard]
  obtain ⟨waypoints, h, -, -, hlimits⟩ :=
    keeps_to_cruise_speed standard Legs.idOf ⟨0, 0⟩ hoverUnits 3 hlength hcruise hhover
  have hvalues : (standard.waypoints Legs.idOf ⟨0, 0⟩ hoverUnits 3).map
      (List.map fun w => (w.target.altitude, w.target.time, w.leg.speed))
      = some [(50, 0, 4), (70, 5, 4), (50, 10, 4)] := by
    decide +kernel
  rw [h] at hvalues
  refine ⟨hlength, hcruise, hhover, waypoints, h, Option.some.inj hvalues, ?_⟩
  exact hlimits .standard (by decide +kernel) (by decide +kernel)

end Scatter

end FlightPlan
