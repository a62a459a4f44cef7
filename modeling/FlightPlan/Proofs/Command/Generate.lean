import FlightPlan.Proofs.Command.Recalc

/-!
# `FlightPlan.Proofs.Command.Generate`: demonstrations as trajectory files

A demonstration comes with its legs computed, and its tail is pinned afterwards. Both are done
under the standard limits, and so a computation under these finds nothing to do
(`Command.recompute_generate`).

The limits in force do not enter. `Command.recalc_generate` states what that means for a
recalculation of a demonstration: headings, speeds, courses and peers stay, and every speed is
judged anew. The demonstration is left as it is exactly when the limits in force and the standard
ones find the same of its speeds feasible. `Command.recalc_generate_ne_self` has a demonstration
of which they do not.
-/

set_option autoImplicit false

namespace FlightPlan

/-- A demonstration is up to date under the standard limits. -/
theorem Scatter.recompute_waypoints {α : Type} [Scalar α] [Geodesy α] {s : Scatter α}
    {ids : FreshIds} {home : Position α} {units : Nat → α} {count : Nat}
    {waypoints : List (Waypoint α)} (h : s.waypoints ids home units count = some waypoints) :
    Legs.recompute .standard waypoints = waypoints := by
  obtain ⟨stations, -, hwaypoints⟩ := Option.bind_eq_some_iff.mp h
  obtain rfl := Option.some.inj hwaypoints
  exact Legs.recompute_pinTail (Legs.recompute_recompute _ _)

namespace Command

section
variable [Geodesy Float] {settings : Settings} {ids : FreshIds} {entropy : Entropy} {count : Nat}

/-- The command gives a demonstration that is up to date under the standard limits. -/
theorem recompute_generate (settings : Settings) (ids : FreshIds) (entropy : Entropy)
    (count : Nat) :
    Legs.recompute .standard (generate settings ids entropy count)
      = generate settings ids entropy count := by
  unfold generate
  simp only
  cases h : Scatter.waypoints { Scatter.standard with baseAltitude := settings.homeAltitude } ids
      settings.home entropy.units count with
  | none => rfl
  | some waypoints => exact Scatter.recompute_waypoints h

/-- Waypoints that make a plan are recalculated to themselves exactly when they are up to date
under the limits in force. -/
theorem recalc_eq_self_iff {waypoints : List (Waypoint Float)} {plan : Plan Float}
    (hplan : Plan.ofWaypoints settings.limits waypoints = .ok plan) :
    recalc settings waypoints = .ok waypoints ↔
      Legs.recompute settings.limits waypoints = waypoints := by
  obtain ⟨hgiven, -⟩ := Plan.ofWaypoints_eq_ok_iff.mp hplan
  rw [recalc_eq_ok_iff, eq_comm]
  exact and_iff_right hgiven

/-- A demonstration whose waypoints make a plan under the limits in force is recalculated under
them: only its speeds are judged anew. That changes nothing exactly when the limits in force and
the standard ones find the same of its speeds feasible. -/
theorem recalc_generate {plan : Plan Float}
    (hplan : Plan.ofWaypoints settings.limits (generate settings ids entropy count) = .ok plan) :
    recalc settings (generate settings ids entropy count)
        = .ok ((generate settings ids entropy count).map (Waypoint.judged settings.limits))
      ∧ (recalc settings (generate settings ids entropy count)
            = .ok (generate settings ids entropy count) ↔
          ∀ w ∈ generate settings ids entropy count,
            (settings.limits.tier w.leg.speed = .feasible ↔
              Limits.standard.tier w.leg.speed = .feasible)) := by
  have hcurrent := recompute_generate settings ids entropy count
  obtain ⟨hgiven, -⟩ := Plan.ofWaypoints_eq_ok_iff.mp hplan
  constructor
  · have hjudged := Legs.recompute_eq_map_judged hcurrent settings.limits
    exact recalc_eq_ok_iff.mpr ⟨hgiven, hjudged.symm⟩
  · rw [recalc_eq_self_iff hplan]
    exact Legs.recompute_eq_self_iff_of_current hcurrent

end

/-- Home is at latitude and longitude zero, and three meters per second are feasible at most. -/
def slowSettings : Settings where
  limits := { Limits.standard with feasible := 3.0 }
  home := ⟨0.0, 0.0⟩
  homeAltitude := 50.0

/-- Words by which the second waypoint is put above home, halfway up the altitude band. -/
def hoverWords : Entropy := .ofWords #[0, 0, 0x8000000000000000]

/-- The two waypoints of the demonstration can be flown to. -/
theorem ofWaypoints_generate_hover :
    letI : Elementary Float := .atZero
    ∃ plan, Plan.ofWaypoints slowSettings.limits
      (generate slowSettings Legs.idOf hoverWords 2) = .ok plan := by
  let _ : Elementary Float := .atZero
  exact ⟨_, Plan.ofWaypoints_eq_ok_iff.mpr ⟨⟨by decide +kernel, by decide +kernel⟩, rfl⟩⟩

/-- The climb of the demonstration takes four meters per second. It comes marked as feasible, and
a recalculation marks it as not feasible. -/
theorem recalc_generate_hover :
    letI : Elementary Float := .atZero
    (∃ plan, Plan.ofWaypoints slowSettings.limits
        (generate slowSettings Legs.idOf hoverWords 2) = .ok plan)
      ∧ (generate slowSettings Legs.idOf hoverWords 2).map
          (fun w => (w.leg.speed == 4.0, w.leg.feasible)) = [(true, true), (true, true)]
      ∧ ∃ result, recalc slowSettings (generate slowSettings Legs.idOf hoverWords 2) = .ok result
        ∧ result.map (fun w => (w.leg.speed == 4.0, w.leg.feasible))
            = [(true, false), (true, false)] := by
  let _ : Elementary Float := .atZero
  obtain ⟨plan, hplan⟩ := ofWaypoints_generate_hover
  exact ⟨⟨plan, hplan⟩, by decide +kernel, _, (recalc_generate hplan).1, by decide +kernel⟩

/-- So recalculating a demonstration under the settings it was made with can change it. -/
theorem recalc_generate_ne_self :
    letI : Elementary Float := .atZero
    slowSettings.fault? = none
      ∧ (∃ plan, Plan.ofWaypoints slowSettings.limits
          (generate slowSettings Legs.idOf hoverWords 2) = .ok plan)
      ∧ recalc slowSettings (generate slowSettings Legs.idOf hoverWords 2)
          ≠ .ok (generate slowSettings Legs.idOf hoverWords 2) := by
  let _ : Elementary Float := .atZero
  obtain ⟨plan, hplan⟩ := ofWaypoints_generate_hover
  refine ⟨by decide +kernel, ⟨plan, hplan⟩, ?_⟩
  rw [ne_eq, recalc_eq_self_iff hplan,
    Legs.recompute_eq_self_iff_of_current (recompute_generate slowSettings Legs.idOf hoverWords 2)]
  decide +kernel

end Command

end FlightPlan
