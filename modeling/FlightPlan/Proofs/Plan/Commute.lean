import FlightPlan.Proofs.Plan.Targets

/-!
# `FlightPlan.Proofs.Plan.Commute`: edits in either order

A revision of one waypoint and an edit that leaves that waypoint's target alone lead to the same
plan in either order, or are refused in either order (`Plan.Commute`). Which edit is refused, and
why, may depend on the order.

The proof is one of itineraries. An edit spares a target (`Itinerary.Spares`) when a look-up finds
the target after the edit as before, and when the edit does the same to an itinerary in which the
target is replaced. A move spares every target, as it looks at identifiers and indexes only, and
so do other limits. A removal or a revision spares every target but its own. Each of them commutes
with a revision of what it spares (`Itinerary.Spares.update_comm`).

Plans follow suit: whatever legs the two orders compute on the way, they end in sound plans of
one itinerary, and these are equal (`IsSound.commute`). `Reached.edits_commute` lists the pairs.
-/

set_option autoImplicit false

namespace FlightPlan

variable {α : Type}

namespace Itinerary

variable [Scalar α] [Geodesy α]

/-- The itinerary after two edits, or why one of them was refused. -/
def applyBoth (itinerary : Itinerary α) (first second : Edit α) :
    Except (EditError α) (Itinerary α) :=
  itinerary.apply first >>= fun next => next.apply second

/-- The edit has nothing to do with the target of an identifier. -/
structure Spares (itinerary : Itinerary α) (id : WaypointId) (edit : Edit α) : Prop where
  /-- The target is there after the edit if it was before. -/
  get?_eq : ∀ next, itinerary.apply edit = .ok next → next.get? id = itinerary.get? id
  /-- The edit does the same when the target is replaced. -/
  apply_replace : ∀ target : Target α, target.id = id →
    (itinerary.replace id target).apply edit
      = (itinerary.apply edit).map fun next => next.replace id target

variable {itinerary : Itinerary α} {id other : WaypointId}

/-! ### Revisions -/

/-- A revision commutes with an edit that spares its target. -/
theorem Spares.update_comm {edit : Edit α} (h : itinerary.Spares id edit) (r : Revision α) :
    (itinerary.applyBoth (.update id r) edit).toOption
      = (itinerary.applyBoth edit (.update id r)).toOption := by
  rw [applyBoth, applyBoth]
  cases hget : itinerary.get? id with
  | none =>
      -- There is nothing to revise, before the edit or after it.
      rw [apply_update_of_get?_eq_none hget]
      cases hedit : itinerary.apply edit with
      | error _ => rfl
      | ok next =>
          show none = (next.apply (.update id r)).toOption
          rw [apply_update_of_get?_eq_none ((h.get?_eq next hedit).trans hget)]
          rfl
  | some target =>
      -- The same target is revised in both orders, so it can be flown to in both or in neither.
      have hafter {next : Itinerary α} (hedit : itinerary.apply edit = .ok next) :=
        apply_update_of_get? ((h.get?_eq next hedit).trans hget) r
      rw [apply_update_of_get? hget]
      by_cases hplaced : (target.revise r).isPlaced = true
      · rw [if_pos hplaced]
        show ((itinerary.replace id (target.revise r)).apply edit).toOption = _
        rw [h.apply_replace (target.revise r) ((target.id_revise r).trans (id_of_get? hget))]
        cases hedit : itinerary.apply edit with
        | error _ => rfl
        | ok next =>
            show some _ = (next.apply (.update id r)).toOption
            rw [hafter hedit, if_pos hplaced]
            rfl
      · rw [if_neg hplaced]
        cases hedit : itinerary.apply edit with
        | error _ => rfl
        | ok next =>
            show none = (next.apply (.update id r)).toOption
            rw [hafter hedit, if_neg hplaced]
            rfl

/-! ### Edits that spare a target -/

/-- A move spares every target, the moved one too. -/
theorem spares_move (goal : Nat) : itinerary.Spares id (.move other goal) where
  get?_eq := by
    intro next hnext
    cases hget : itinerary.get? other with
    | none =>
        rw [apply, hget] at hnext
        cases hnext
    | some target =>
        rw [apply_move_of_get? hget] at hnext
        split at hnext
        · cases hnext
        · obtain rfl := Except.ok.inj hnext
          obtain rfl := id_of_get? hget
          -- The moved target is found where it was put, and every other one as before.
          by_cases hid : target.id = id
          · subst hid
            rw [hget]
            exact find?_spliced_without goal
          · exact (find?_spliced hid goal).trans (find?_without (Ne.symm hid))
  apply_replace := by
    intro target hid
    rw [apply, apply, get?_replace hid]
    cases hget : itinerary.get? other with
    | none => rfl
    | some found =>
        simp only [Option.map_some, replace, advance, length_replaced]
        by_cases hgoal : itinerary.targets.length ≤ goal
        · rw [if_pos hgoal, if_pos hgoal]
          rfl
        · rw [if_neg hgoal, if_neg hgoal, without_replaced hid, spliced_replaced]
          rfl

/-- A removal spares every other target. -/
theorem spares_remove (hne : id ≠ other) : itinerary.Spares id (.remove other) where
  get?_eq := by
    intro next hnext
    rw [apply] at hnext
    split at hnext
    · cases hnext
    · obtain rfl := Except.ok.inj hnext
      exact find?_without hne
  apply_replace := by
    intro target hid
    rw [apply, apply, get?_replace hid]
    cases hget : itinerary.get? other with
    | none => rfl
    | some found =>
        simp only [Option.map_some, replace, advance, without_replaced hid]
        rfl

/-- A revision spares every other target. -/
theorem spares_update (hne : id ≠ other) (r : Revision α) :
    itinerary.Spares id (.update other r) where
  get?_eq := by
    intro next hnext
    cases hget : itinerary.get? other with
    | none =>
        rw [apply_update_of_get?_eq_none hget] at hnext
        cases hnext
    | some found =>
        rw [apply_update_of_get? hget] at hnext
        split at hnext
        · obtain rfl := Except.ok.inj hnext
          exact get?_replace_of_ne ((found.id_revise r).trans (id_of_get? hget)) hne
        · cases hnext
  apply_replace := by
    intro target hid
    have hreplaced : (itinerary.replace id target).get? other = itinerary.get? other :=
      get?_replace_of_ne hid hne.symm
    cases hget : itinerary.get? other with
    | none =>
        rw [apply_update_of_get?_eq_none hget, apply_update_of_get?_eq_none (hreplaced.trans hget)]
        rfl
    | some found =>
        rw [apply_update_of_get? hget, apply_update_of_get? (hreplaced.trans hget)]
        by_cases hplaced : (found.revise r).isPlaced = true
        · rw [if_pos hplaced, if_pos hplaced]
          have hrevised := (found.id_revise r).trans (id_of_get? hget)
          simp only [replace, advance, replaced_comm hne hid hrevised]
          rfl
        · rw [if_neg hplaced, if_neg hplaced]
          rfl

/-- Other limits spare every target. -/
theorem spares_withLimits (limits : Limits α) : itinerary.Spares id (.withLimits limits) where
  get?_eq := by
    intro next hnext
    obtain rfl := Except.ok.inj hnext
    rfl
  apply_replace := fun _ _ => rfl

end Itinerary

namespace Plan

variable [Scalar α] [Geodesy α] {plan : Plan α}

/-- The plan after two edits, or why one of them was refused. -/
def applyBoth (plan : Plan α) (first second : Edit α) : Except (EditError α) (Plan α) :=
  plan.apply first >>= fun next => next.apply second

/-- Two edits lead to the same plan in either order, or are refused in either order. -/
def Commute (plan : Plan α) (first second : Edit α) : Prop :=
  (plan.applyBoth first second).toOption = (plan.applyBoth second first).toOption

/-- Two edits keep a plan sound. -/
theorem IsSound.applyBoth (h : plan.IsSound) {first second : Edit α} {next : Plan α}
    (hnext : plan.applyBoth first second = .ok next) : next.IsSound := by
  rw [Plan.applyBoth] at hnext
  cases hfirst : plan.apply first with
  | error _ =>
      rw [hfirst] at hnext
      cases hnext
  | ok between =>
      rw [hfirst] at hnext
      exact (h.apply hfirst).apply hnext

/-- Two edits of a plan are two edits of its itinerary. -/
theorem IsSound.itinerary_applyBoth (h : plan.IsSound) (first second : Edit α) :
    (plan.applyBoth first second).map itinerary = plan.itinerary.applyBoth first second := by
  rw [Plan.applyBoth, Itinerary.applyBoth, ← h.itinerary_apply first]
  cases hfirst : plan.apply first with
  | error _ => rfl
  | ok between => exact (h.apply hfirst).itinerary_apply second

/-- Edits of a sound plan commute when they do on its itinerary. -/
theorem IsSound.commute (h : plan.IsSound) {first second : Edit α}
    (hcomm : (plan.itinerary.applyBoth first second).toOption
      = (plan.itinerary.applyBoth second first).toOption) : plan.Commute first second := by
  rw [← h.itinerary_applyBoth, ← h.itinerary_applyBoth] at hcomm
  rw [Commute]
  -- The itineraries settle which orders are refused, and soundness the legs of the rest.
  cases hone : plan.applyBoth first second with
  | error _ =>
      cases htwo : plan.applyBoth second first with
      | error _ => rfl
      | ok other =>
          rw [hone, htwo] at hcomm
          cases hcomm
  | ok next =>
      cases htwo : plan.applyBoth second first with
      | error _ =>
          rw [hone, htwo] at hcomm
          cases hcomm
      | ok other =>
          rw [hone, htwo] at hcomm
          have hitinerary : next.itinerary = other.itinerary := Option.some.inj hcomm
          rw [(h.applyBoth hone).eq_of_itinerary_eq (h.applyBoth htwo) hitinerary]

/-- A waypoint of a plan that edits lead to is revised, and something else is done to the plan:
another waypoint is revised or taken out, any waypoint is moved, or the limits are changed. The
order makes no difference to whether both are accepted, nor to the version, the limits, the
targets and the legs of the plan they lead to. -/
theorem Reached.edits_commute {n : Nat} (h : Reached n plan) {id other : WaypointId}
    (hne : id ≠ other) (r r' : Revision α) (goal : Nat) (limits : Limits α) :
    plan.Commute (.update id r) (.update other r')
      ∧ plan.Commute (.update id r) (.move id goal)
      ∧ plan.Commute (.update id r) (.move other goal)
      ∧ plan.Commute (.update id r) (.remove other)
      ∧ plan.Commute (.update id r) (.withLimits limits) := by
  have hcommute {edit : Edit α} (hspares : plan.itinerary.Spares id edit) :
      plan.Commute (.update id r) edit := h.isSound.commute (hspares.update_comm r)
  exact ⟨hcommute (Itinerary.spares_update hne r'), hcommute (Itinerary.spares_move goal),
    hcommute (Itinerary.spares_move goal), hcommute (Itinerary.spares_remove hne),
    hcommute (Itinerary.spares_withLimits limits)⟩

/-- The end of the corner is revised before or after the middle is, and before or after it is
dragged to the front itself. -/
theorem edits_commute_corner :
    ∃ start, ofWaypoints Limits.standard Legs.corner = .ok start ∧ Legs.idOf 3 ≠ Legs.idOf 2
      ∧ start.Commute
          (.update (Legs.idOf 3) ⟨none, none, none, some 140.0, none, some (.manual 10.0)⟩)
          (.update (Legs.idOf 2) ⟨none, some 35.0005, none, none, some (0.0 / 0.0), none⟩)
      ∧ start.Commute
          (.update (Legs.idOf 3) ⟨none, none, none, some 140.0, none, some (.manual 10.0)⟩)
          (.move (Legs.idOf 3) 0)
      ∧ (start.applyBoth
          (.update (Legs.idOf 3) ⟨none, none, none, some 140.0, none, some (.manual 10.0)⟩)
          (.move (Legs.idOf 3) 0)).toOption.isSome = true := by
  have hne : Legs.idOf 3 ≠ Legs.idOf 2 := by decide
  obtain ⟨hupdate, hmove, -⟩ := Reached.edits_commute (.start (.ofWaypoints ofWaypoints_corner))
    hne ⟨none, none, none, some 140.0, none, some (.manual 10.0)⟩
    ⟨none, some 35.0005, none, none, some (0.0 / 0.0), none⟩ 0 Limits.standard
  exact ⟨_, ofWaypoints_corner, hne, hupdate, hmove, by decide⟩

end Plan

end FlightPlan
