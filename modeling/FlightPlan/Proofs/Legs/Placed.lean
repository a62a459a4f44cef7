import FlightPlan.Legs

/-!
# `FlightPlan.Proofs.Legs.Placed`: what a leg depends on

`Legs.placed` walks a sequence once and hands every waypoint its neighbours. Here
it is read by index: the neighbours of the waypoint at `i` are the targets at
`i - 1` and `i + 1` (`getElem?_placed`), so a leg follows from the targets
around it. The theorems:

* `Placed.leg_congr`: a leg depends on its two ends, the identifier of its other
  end, and the heading mode of the waypoint that reports it.
* `Placed.leg_of_bare`: names and heading modes decide nothing about a leg but
  its heading, and that only by the mode of the reporting waypoint.
* `recompute_congr`: what is recomputed follows from the targets alone. The legs
  that were there before are without influence, and so `recompute_recompute`.
* `recompute_eq_self_iff`: a sequence is recomputed to itself exactly when every
  waypoint reports the leg that follows from its neighbours.
* `recompute_eq_map_judged`: under other limits nothing changes but which speeds
  are feasible.
* `recompute_pinTail`: pinning the tail of an up-to-date sequence leaves it up to
  date.
-/

set_option autoImplicit false

namespace FlightPlan

/-- The target without its name and its heading mode, at which no leg looks but the one
that the target itself reports. -/
def Target.bare {α : Type} (target : Target α) : Target α :=
  { target with name := "", headingMode := .auto }

/-- The waypoint with its speed judged anew. -/
def Waypoint.judged {α : Type} [Scalar α] (limits : Limits α) (waypoint : Waypoint α) :
    Waypoint α :=
  { waypoint with leg :=
      { waypoint.leg with feasible := limits.tier waypoint.leg.speed == .feasible } }

namespace Placed

section
variable {α : Type}

/-- The other end of a leg is the next waypoint, or the previous one if there is none. -/
theorem peer_eq_or (p : Placed α) : p.peer = (p.next.or p.previous).map Target.id := by
  obtain ⟨previous, here, next⟩ := p
  cases next <;> cases previous <;> rfl

/-- The ends of a leg, bare, follow from the bare targets around it. -/
theorem ends_map_bare {p q : Placed α}
    (hprevious : p.previous.map Target.bare = q.previous.map Target.bare)
    (hhere : p.here.target.bare = q.here.target.bare)
    (hnext : p.next.map Target.bare = q.next.map Target.bare) :
    p.ends.map (Prod.map Target.bare Target.bare)
      = q.ends.map (Prod.map Target.bare Target.bare) := by
  obtain ⟨previous, here, next⟩ := p
  obtain ⟨previous', here', next'⟩ := q
  cases next <;> cases next' <;> cases previous <;> cases previous' <;>
    simp_all [ends]

end

variable {α : Type} [Scalar α] [Geodesy α]

/-- Computing a leg keeps the target. -/
@[simp] theorem target_computed (limits : Limits α) (p : Placed α) :
    (p.computed limits).target = p.here.target := rfl

/-- Computing a leg stores the leg that neighbours and limits give. -/
@[simp] theorem leg_computed (limits : Limits α) (p : Placed α) :
    (p.computed limits).leg = p.leg limits := rfl

/-- A leg depends on its two ends, on the identifier of its other end, and on the heading
mode of the waypoint that reports it. -/
theorem leg_congr (limits : Limits α) {p q : Placed α} (hends : p.ends = q.ends)
    (hpeer : p.peer = q.peer)
    (hmode : p.here.target.headingMode = q.here.target.headingMode) :
    p.leg limits = q.leg limits := by
  simp only [leg, speed?, course?, hends, hpeer, hmode]

/-- Names and heading modes around a waypoint decide nothing about its leg but the
heading, and that only by the waypoint's own mode. -/
theorem leg_of_bare (limits : Limits α) {p q : Placed α}
    (hprevious : p.previous.map Target.bare = q.previous.map Target.bare)
    (hhere : p.here.target.bare = q.here.target.bare)
    (hnext : p.next.map Target.bare = q.next.map Target.bare) :
    p.leg limits =
      { q.leg limits with
        heading := p.here.target.headingMode.effective (q.leg limits).course } := by
  have hends := ends_map_bare hprevious hhere hnext
  have hspeed : p.speed? = q.speed? := by
    have h := congrArg (Option.map fun e : Target α × Target α => Speed.required e.1 e.2) hends
    rw [Option.map_map, Option.map_map] at h
    exact h
  have hcourse : p.course? = q.course? := by
    have h := congrArg
      (Option.map fun e : Target α × Target α => Heading.toward e.1.position e.2.position) hends
    rw [Option.map_map, Option.map_map] at h
    exact h
  have hpeer : p.peer = q.peer := by
    have hid (t : Option (Target α)) : (t.map Target.bare).map Target.id = t.map Target.id := by
      rw [Option.map_map]
      rfl
    rw [peer_eq_or, peer_eq_or, Option.map_or, Option.map_or, ← hid p.next, ← hid p.previous,
      hnext, hprevious, hid, hid]
  simp only [leg, hspeed, hcourse, hpeer]

end Placed

namespace Legs

/-! ### Neighbours by index -/

section
variable {α : Type}

/-- The target before an index. -/
def before (waypoints : List (Waypoint α)) : Nat → Option (Target α)
  | 0 => none
  | i + 1 => waypoints[i]?.map Waypoint.target

/-- The target behind an index. -/
def behind (waypoints : List (Waypoint α)) (i : Nat) : Option (Target α) :=
  waypoints[i + 1]?.map Waypoint.target

/-- The target before an index is that of the waypoint one index less. -/
theorem before_eq_some {waypoints : List (Waypoint α)} {i : Nat} {t : Target α} :
    before waypoints i = some t ↔ ∃ j w, i = j + 1 ∧ waypoints[j]? = some w ∧ w.target = t := by
  cases i with
  | zero => simp [before]
  | succ i =>
      rw [before, Option.map_eq_some_iff]
      constructor
      · rintro ⟨w, hw⟩
        exact ⟨i, w, rfl, hw⟩
      · rintro ⟨j, w, hj, hw⟩
        obtain rfl := Nat.succ.inj hj
        exact ⟨w, hw⟩

/-- The target behind an index is that of the waypoint one index more. -/
theorem behind_eq_some {waypoints : List (Waypoint α)} {i : Nat} {t : Target α} :
    behind waypoints i = some t ↔ ∃ w, waypoints[i + 1]? = some w ∧ w.target = t := by
  rw [behind, Option.map_eq_some_iff]

/-- Nothing is behind the last index. -/
theorem behind_eq_none {waypoints : List (Waypoint α)} {i : Nat} :
    behind waypoints i = none ↔ waypoints.length ≤ i + 1 := by
  rw [behind, Option.map_eq_none_iff, List.getElem?_eq_none_iff]

/-- Sequences whose targets look the same have neighbours everywhere that look the same. -/
theorem before_map_congr {β : Type} (f : Target α → β) {first second : List (Waypoint α)}
    (h : first.map (f ·.target) = second.map (f ·.target)) (i : Nat) :
    (before first i).map f = (before second i).map f := by
  cases i with
  | zero => rfl
  | succ i =>
      have hi := congrArg (·[i]?) h
      simp only [List.getElem?_map] at hi
      rw [before, before, Option.map_map, Option.map_map]
      exact hi

/-- What is told about the target behind an index is told by what is told about all targets. -/
theorem behind_map_congr {β : Type} (f : Target α → β) {first second : List (Waypoint α)}
    (h : first.map (f ·.target) = second.map (f ·.target)) (i : Nat) :
    (behind first i).map f = (behind second i).map f := by
  have hi := congrArg (·[i + 1]?) h
  simp only [List.getElem?_map] at hi
  rw [behind, behind, Option.map_map, Option.map_map]
  exact hi

/-- The walk that `placed` starts, entered behind a given target. -/
theorem getElem?_placedAfter (previous : Option (Target α)) (waypoints : List (Waypoint α))
    (i : Nat) :
    (placedAfter previous waypoints)[i]?
      = waypoints[i]?.map fun here =>
          ⟨if i = 0 then previous else before waypoints i, here, behind waypoints i⟩ := by
  induction waypoints generalizing previous i with
  | nil => rfl
  | cons here rest ih =>
      cases i with
      | zero => cases rest <;> rfl
      | succ i =>
          rw [placedAfter, List.getElem?_cons_succ, ih, List.getElem?_cons_succ]
          cases i with
          | zero => rfl
          | succ i => rfl

/-- The waypoint at an index is placed between the targets before and behind it. -/
theorem getElem?_placed (waypoints : List (Waypoint α)) (i : Nat) :
    (placed waypoints)[i]?
      = waypoints[i]?.map fun here => ⟨before waypoints i, here, behind waypoints i⟩ := by
  rw [placed, getElem?_placedAfter]
  cases i with
  | zero => rfl
  | succ i => rfl

/-- A placed waypoint, taken apart. -/
theorem getElem?_placed_eq_some {waypoints : List (Waypoint α)} {i : Nat} {p : Placed α} :
    (placed waypoints)[i]? = some p ↔
      waypoints[i]? = some p.here ∧ before waypoints i = p.previous
        ∧ behind waypoints i = p.next := by
  rw [getElem?_placed, Option.map_eq_some_iff]
  constructor
  · rintro ⟨here, hhere, rfl⟩
    exact ⟨hhere, rfl, rfl⟩
  · rintro ⟨hhere, hbefore, hbehind⟩
    exact ⟨p.here, hhere, by rw [hbefore, hbehind]⟩

/-- Every waypoint of a sequence is placed at its index. -/
theorem exists_placed {waypoints : List (Waypoint α)} {i : Nat} {w : Waypoint α}
    (hw : waypoints[i]? = some w) :
    ∃ p : Placed α, (placed waypoints)[i]? = some p ∧ p.here = w :=
  ⟨⟨before waypoints i, w, behind waypoints i⟩, getElem?_placed_eq_some.mpr ⟨hw, rfl, rfl⟩, rfl⟩

/-- Placing waypoints neither adds nor drops one. -/
@[simp] theorem map_here_placed (waypoints : List (Waypoint α)) :
    (placed waypoints).map Placed.here = waypoints := by
  refine List.ext_getElem? ?_
  intro i
  rw [List.getElem?_map, getElem?_placed, Option.map_map]
  cases waypoints[i]? <;> rfl

/-- Every waypoint is handed its neighbours. -/
@[simp] theorem length_placed (waypoints : List (Waypoint α)) :
    (placed waypoints).length = waypoints.length := by
  rw [← List.length_map Placed.here, map_here_placed]

end

/-! ### Full computation -/

variable {α : Type} [Scalar α] [Geodesy α]

/-- At each index a full computation stores the leg of the waypoint between its neighbours. -/
theorem getElem?_recompute (limits : Limits α) (waypoints : List (Waypoint α)) (i : Nat) :
    (recompute limits waypoints)[i]? = (placed waypoints)[i]?.map (Placed.computed limits) := by
  rw [recompute, List.getElem?_map]

/-- A full computation neither adds a waypoint nor takes one out. -/
@[simp] theorem length_recompute (limits : Limits α) (waypoints : List (Waypoint α)) :
    (recompute limits waypoints).length = waypoints.length := by
  rw [recompute, List.length_map, length_placed]

/-- Computing legs leaves every target as it was. -/
@[simp] theorem map_target_recompute (limits : Limits α) (waypoints : List (Waypoint α)) :
    (recompute limits waypoints).map Waypoint.target = waypoints.map Waypoint.target := by
  have h := congrArg (List.map Waypoint.target) (map_here_placed waypoints)
  rw [List.map_map] at h
  rw [recompute, List.map_map]
  exact h

/-- What is recomputed follows from the targets, whatever the legs were before. -/
theorem recompute_congr (limits : Limits α) {first second : List (Waypoint α)}
    (h : first.map Waypoint.target = second.map Waypoint.target) :
    recompute limits first = recompute limits second := by
  refine List.ext_getElem? ?_
  intro i
  have hhere : first[i]?.map Waypoint.target = second[i]?.map Waypoint.target := by
    rw [← List.getElem?_map, h, List.getElem?_map]
  have hbefore : before first i = before second i := by
    simpa using before_map_congr id h i
  have hbehind : behind first i = behind second i := by
    simpa using behind_map_congr id h i
  rw [getElem?_recompute, getElem?_recompute, getElem?_placed, getElem?_placed, hbefore, hbehind]
  cases hf : first[i]? with
  | none =>
      cases hs : second[i]? with
      | none => rfl
      | some w => simp [hf, hs] at hhere
  | some v =>
      cases hs : second[i]? with
      | none => simp [hf, hs] at hhere
      | some w =>
          have htarget : v.target = w.target := by simpa [hf, hs] using hhere
          simp [Placed.computed, Placed.leg, Placed.speed?, Placed.course?, Placed.ends,
            Placed.peer, htarget]

/-- Computing legs twice is computing them once. -/
theorem recompute_recompute (limits : Limits α) (waypoints : List (Waypoint α)) :
    recompute limits (recompute limits waypoints) = recompute limits waypoints :=
  recompute_congr limits (map_target_recompute limits waypoints)

/-- A sequence is recomputed to itself exactly when every waypoint reports the leg that
follows from its neighbours. -/
theorem recompute_eq_self_iff {limits : Limits α} {waypoints : List (Waypoint α)} :
    recompute limits waypoints = waypoints ↔
      ∀ p ∈ placed waypoints, p.here.leg = p.leg limits := by
  -- Both sides map the same placed waypoints, so they agree when they do so at each.
  have hmap : recompute limits waypoints = waypoints ↔
      (placed waypoints).map (Placed.computed limits) = (placed waypoints).map Placed.here := by
    rw [map_here_placed]
    rfl
  rw [hmap, List.map_inj_left]
  constructor
  · intro h p hp
    rw [← h p hp, Placed.leg_computed]
  · intro h p hp
    rw [Placed.computed, ← h p hp]

/-! ### Other limits -/

/-- Limits decide nothing about a leg but whether its speed is feasible, so under other limits
the speeds of an up-to-date sequence only need to be judged anew. -/
theorem recompute_eq_map_judged {limits : Limits α} {waypoints : List (Waypoint α)}
    (h : recompute limits waypoints = waypoints) (other : Limits α) :
    recompute other waypoints = waypoints.map (Waypoint.judged other) := by
  have hjudged : recompute other waypoints
      = (recompute limits waypoints).map (Waypoint.judged other) := by
    rw [recompute, recompute, List.map_map]
    rfl
  rw [hjudged, h]

omit [Geodesy α] in
/-- Two limits judge a waypoint alike when its speed is feasible under both or under neither. -/
theorem judged_eq_judged_iff {limits other : Limits α} {w : Waypoint α} :
    w.judged other = w.judged limits ↔
      (other.tier w.leg.speed = .feasible ↔ limits.tier w.leg.speed = .feasible) := by
  have hmark : w.judged other = w.judged limits ↔
      (other.tier w.leg.speed == .feasible) = (limits.tier w.leg.speed == .feasible) := by
    constructor
    · exact congrArg fun judged : Waypoint α => judged.leg.feasible
    · intro h
      rw [Waypoint.judged, Waypoint.judged, h]
  rw [hmark, Bool.eq_iff_iff, beq_iff_eq, beq_iff_eq]

/-- An up-to-date sequence is so under other limits too exactly when these find the same of its
speeds feasible. -/
theorem recompute_eq_self_iff_of_current {limits other : Limits α} {waypoints : List (Waypoint α)}
    (h : recompute limits waypoints = waypoints) :
    recompute other waypoints = waypoints ↔
      ∀ w ∈ waypoints,
        (other.tier w.leg.speed = .feasible ↔ limits.tier w.leg.speed = .feasible) := by
  have hsame : waypoints.map (Waypoint.judged limits) = waypoints := by
    rw [← recompute_eq_map_judged h limits, h]
  calc
    recompute other waypoints = waypoints
        ↔ waypoints.map (Waypoint.judged other) = waypoints.map (Waypoint.judged limits) := by
      rw [recompute_eq_map_judged h other, hsame]
    _ ↔ ∀ w ∈ waypoints, w.judged other = w.judged limits := List.map_inj_left
    _ ↔ _ := forall₂_congr fun _ _ => judged_eq_judged_iff

/-! ### The pinned tail -/

omit [Geodesy α] in
/-- Pinning changes nothing of a target but its heading mode. -/
@[simp] theorem bare_target_pinned (w : Waypoint α) : (pinned w).target.bare = w.target.bare := by
  unfold pinned
  split <;> rfl

omit [Geodesy α] in
/-- Only the last of two or more waypoints is pinned. -/
theorem getElem?_pinTail {waypoints : List (Waypoint α)} (h : 2 ≤ waypoints.length) (i : Nat) :
    (pinTail waypoints)[i]? =
      waypoints[i]?.map fun w => if i + 1 = waypoints.length then pinned w else w := by
  rw [pinTail, if_neg (Nat.not_lt.mpr h), List.getElem?_modify]
  have hlast : waypoints.length - 1 = i ↔ i + 1 = waypoints.length := by omega
  simp only [hlast]
  cases waypoints[i]? with
  | none => rfl
  | some w => split <;> rfl

omit [Geodesy α] in
/-- Pinning changes nothing that other legs look at. -/
theorem map_bare_pinTail (waypoints : List (Waypoint α)) :
    (pinTail waypoints).map (·.target.bare) = waypoints.map (·.target.bare) := by
  rcases Nat.lt_or_ge waypoints.length 2 with hshort | hlong
  · rw [pinTail, if_pos hshort]
  · refine List.ext_getElem? ?_
    intro i
    rw [List.getElem?_map, getElem?_pinTail hlong, List.getElem?_map, Option.map_map]
    congr 1
    funext w
    show (if i + 1 = waypoints.length then pinned w else w).target.bare = w.target.bare
    split
    · exact bare_target_pinned w
    · rfl

/-- A waypoint that reports its leg still does when it is pinned: the heading it keeps is
the one it arrives with. -/
theorem leg_pinned (limits : Limits α) {p q : Placed α}
    (hprevious : p.previous.map Target.bare = q.previous.map Target.bare)
    (hhere : p.here = pinned q.here) (hnext : p.next.map Target.bare = q.next.map Target.bare)
    (hleg : q.here.leg = q.leg limits) : p.here.leg = p.leg limits := by
  have hbare : p.here.target.bare = q.here.target.bare := by rw [hhere, bare_target_pinned]
  rw [Placed.leg_of_bare limits hprevious hbare hnext, hhere, ← hleg]
  unfold pinned
  split
  · rfl
  · rw [hleg]
    rfl

/-- Pinning the tail of an up-to-date sequence leaves it up to date. -/
theorem recompute_pinTail {limits : Limits α} {waypoints : List (Waypoint α)}
    (h : recompute limits waypoints = waypoints) :
    recompute limits (pinTail waypoints) = pinTail waypoints := by
  rcases Nat.lt_or_ge waypoints.length 2 with hshort | hlong
  · rwa [pinTail, if_pos hshort]
  rw [recompute_eq_self_iff] at h ⊢
  intro p hp
  obtain ⟨i, hi⟩ := List.getElem?_of_mem hp
  obtain ⟨hhere, hbefore, hbehind⟩ := getElem?_placed_eq_some.mp hi
  rw [getElem?_pinTail hlong, Option.map_eq_some_iff] at hhere
  obtain ⟨w, hw, hhere⟩ := hhere
  obtain ⟨q, hq, rfl⟩ := exists_placed hw
  obtain ⟨-, hqbefore, hqbehind⟩ := getElem?_placed_eq_some.mp hq
  have hprevious : p.previous.map Target.bare = q.previous.map Target.bare := by
    rw [← hbefore, ← hqbefore]
    exact before_map_congr Target.bare (map_bare_pinTail waypoints) i
  have hnext : p.next.map Target.bare = q.next.map Target.bare := by
    rw [← hbehind, ← hqbehind]
    exact behind_map_congr Target.bare (map_bare_pinTail waypoints) i
  have hleg := h q (List.mem_of_getElem? hq)
  -- Only the last waypoint changes, and the others look at its bare target.
  split at hhere
  · exact leg_pinned limits hprevious hhere.symm hnext hleg
  · rw [Placed.leg_of_bare limits hprevious (by rw [hhere]) hnext, ← hhere, hleg]
    rfl

end Legs

end FlightPlan
