import FlightPlan.Proofs.Legs.Refresh
import FlightPlan.Proofs.Plan.Speeds
import FlightPlan.Summary

/-!
# `FlightPlan.Proofs.Summary`: what each total is the total of

The totals of a sequence are collected in one walk over its legs and two over its altitudes, and
each of them has its own way with what is not finite. A length that is not finite is left out of
the distance. A speed that is not a number is left out of the greatest speed, where one that is
infinite counts. An altitude that is not finite is left out of the range, so that there may be no
range. And a span of time that is not finite counts as none.

`IsExact` says of each total what it stands for, with the legs as pairs of neighbours
(`Legs.pairs`). No limit is asked to be valid and no number to be finite
(`Summary.isExact_ofSequence`). Tiers are counted by `TierCounts.get_foldl_add`, and greatest and
least numbers are told by `Extreme`.
-/

set_option autoImplicit false

namespace FlightPlan

open Scalar (isNaN isFinite fmax fmin)

namespace Legs

variable {α : Type}

/-- Each waypoint of a sequence with the one that follows it. -/
def pairs : List (Waypoint α) → List (Waypoint α × Waypoint α)
  | [] => []
  | [_] => []
  | v :: w :: rest => (v, w) :: pairs (w :: rest)

/-- At each index there is the pair of the waypoint there and the one behind it. -/
theorem getElem?_pairs {waypoints : List (Waypoint α)} {i : Nat} {v w : Waypoint α} :
    (pairs waypoints)[i]? = some (v, w) ↔
      waypoints[i]? = some v ∧ waypoints[i + 1]? = some w := by
  fun_induction pairs waypoints generalizing i with
  | case1 => simp
  | case2 only => simp
  | case3 first second rest ih =>
      cases i with
      | zero => simp
      | succ i => simpa using ih

/-- Two waypoints are a pair when one is right behind the other. -/
theorem mem_pairs_iff {waypoints : List (Waypoint α)} {v w : Waypoint α} :
    (v, w) ∈ pairs waypoints ↔
      ∃ i : Nat, waypoints[i]? = some v ∧ waypoints[i + 1]? = some w := by
  simp only [List.mem_iff_getElem?, getElem?_pairs]

/-- The legs that the totals are collected from are between the targets of the pairs. -/
theorem zip_tail_eq_pairs (waypoints : List (Waypoint α)) :
    (waypoints.map Waypoint.target).zip (waypoints.map Waypoint.target).tail
      = (pairs waypoints).map (Prod.map Waypoint.target Waypoint.target) := by
  fun_induction pairs waypoints with
  | case1 => rfl
  | case2 only => rfl
  | case3 first second rest ih => simpa using ih

/-- There is one pair fewer than there are waypoints. -/
theorem length_pairs (waypoints : List (Waypoint α)) :
    (pairs waypoints).length = waypoints.length - 1 := by
  fun_induction pairs waypoints with
  | case1 => rfl
  | case2 only => rfl
  | case3 first second rest ih => simpa using ih

section
variable [Scalar α] [Geodesy α]

/-- The speed of each leg, computed once. -/
def speeds (waypoints : List (Waypoint α)) : List α :=
  (pairs waypoints).map fun (v, w) => Speed.required v.target w.target

/-- The length of each leg. -/
def lengths (waypoints : List (Waypoint α)) : List α :=
  (pairs waypoints).map fun (v, w) => Speed.length v.target w.target

/-- A speed is that of a leg between two waypoints, one right behind the other. -/
theorem mem_speeds_iff {waypoints : List (Waypoint α)} {speed : α} :
    speed ∈ speeds waypoints ↔
      ∃ (i : Nat) (v w : Waypoint α), waypoints[i]? = some v ∧ waypoints[i + 1]? = some w
        ∧ speed = Speed.required v.target w.target := by
  rw [speeds, List.mem_map]
  constructor
  · rintro ⟨⟨v, w⟩, hpair, rfl⟩
    obtain ⟨i, hv, hw⟩ := mem_pairs_iff.mp hpair
    exact ⟨i, v, w, hv, hw, rfl⟩
  · rintro ⟨i, v, w, hv, hw, rfl⟩
    exact ⟨(v, w), mem_pairs_iff.mpr ⟨i, hv, hw⟩, rfl⟩

end

end Legs

namespace TierCounts

/-- One more leg is one more in the total. -/
theorem total_add (counts : TierCounts) (tier : Tier) :
    (counts.add tier).total = counts.total + 1 := by
  cases tier <;> simp only [add, total] <;> omega

/-- Each tier that is added is one more in all. -/
theorem total_foldl_add (counts : TierCounts) (tiers : List Tier) :
    (tiers.foldl add counts).total = counts.total + tiers.length := by
  induction tiers generalizing counts with
  | nil => rfl
  | cons first rest ih =>
      rw [List.foldl_cons, ih, total_add, List.length_cons]
      omega

end TierCounts

namespace Summary

section
variable {α : Type}

/-- Numbers can be taken together unless there are none. -/
theorem reduce_eq_none_iff {f : α → α → α} {numbers : List α} :
    reduce f numbers = none ↔ numbers = [] := by
  cases numbers with
  | nil => simp [reduce]
  | cons first rest => simp [reduce]

end

variable {α : Type} [Scalar α] {waypoints : List (Waypoint α)}

/-- What numbers are taken together to is one of them, and the others lead to it. -/
theorem reduce_eq_some {R : α → α → Prop} {f : α → α → α} (h : Extreme R f) {numbers : List α}
    {chosen : α} (hchosen : reduce f numbers = some chosen) :
    chosen ∈ numbers ∧ ∀ x ∈ numbers, isNaN x = false → R x chosen := by
  cases numbers with
  | nil => contradiction
  | cons first rest =>
      obtain rfl := Option.some.inj hchosen
      constructor
      · exact h.foldl_mem first rest
      · intro x hx hnumber
        exact h.foldl_bound hx hnumber

/-- The altitudes looked at are the finite ones among the waypoints. -/
theorem mem_finiteAltitudes {altitude : α} :
    altitude ∈ finiteAltitudes waypoints ↔
      isFinite altitude = true ∧ ∃ w ∈ waypoints, w.target.altitude = altitude := by
  rw [finiteAltitudes, List.mem_filter, List.mem_map, and_comm]

/-- None is looked at when no altitude is finite. -/
theorem finiteAltitudes_eq_nil_iff :
    finiteAltitudes waypoints = [] ↔ ∀ w ∈ waypoints, isFinite w.target.altitude = false := by
  simp [finiteAltitudes, List.filter_eq_nil_iff]

/-- What is to be said of an end of the range of altitudes: there is one unless no altitude is
finite, it is a finite altitude of a waypoint, and all finite altitudes lead to it. -/
structure IsEnd (R : α → α → Prop) (waypoints : List (Waypoint α)) (chosen : Option α) :
    Prop where
  none_iff : chosen = none ↔ ∀ w ∈ waypoints, isFinite w.target.altitude = false
  attained {altitude : α} (h : chosen = some altitude) :
    isFinite altitude = true ∧ ∃ w ∈ waypoints, w.target.altitude = altitude
  bound {altitude : α} (h : chosen = some altitude) {w : Waypoint α} (hw : w ∈ waypoints)
    (hfinite : isFinite w.target.altitude = true) : R w.target.altitude altitude

/-- What is to be said of the totals of a sequence. -/
structure IsExact [Geodesy α] (limits : Limits α) (waypoints : List (Waypoint α))
    (summary : Summary α) : Prop where
  waypointCount : summary.waypointCount = waypoints.length
  legCount : summary.legCount = waypoints.length - 1
  /-- Each leg is in one of the tiers, -/
  total_tiers : summary.tiers.total = summary.legCount
  /-- and it is in the tier of its speed. -/
  get_tiers (tier : Tier) : summary.tiers.get tier
    = (Legs.speeds waypoints).countP fun speed => limits.tier speed == tier
  zero_le_maxSpeed : 0.0 ≤ summary.maxSpeed
  le_maxSpeed {i : Nat} {v w : Waypoint α} (hv : waypoints[i]? = some v)
    (hw : waypoints[i + 1]? = some w)
    (hnumber : isNaN (Speed.required v.target w.target) = false) :
    Speed.required v.target w.target ≤ summary.maxSpeed
  maxSpeed_attained : summary.maxSpeed = 0.0 ∨
    ∃ (i : Nat) (v w : Waypoint α), waypoints[i]? = some v ∧ waypoints[i + 1]? = some w
      ∧ summary.maxSpeed = Speed.required v.target w.target
  /-- Lengths are added in the order of the legs. -/
  distance : summary.distance = ((Legs.lengths waypoints).filter isFinite).foldl (· + ·) 0.0
  minAltitude : IsEnd (· ≥ ·) waypoints summary.minAltitude
  maxAltitude : IsEnd (· ≤ ·) waypoints summary.maxAltitude
  duration_of_lt {first last : Waypoint α} (hfirst : waypoints.head? = some first)
    (hlast : waypoints.getLast? = some last)
    (hfinite : isFinite (last.target.time - first.target.time) = true)
    (hlt : 0.0 < last.target.time - first.target.time) :
    summary.duration = last.target.time - first.target.time
  /-- Without waypoints, and with a span that is not finite or not positive, there is none. -/
  duration_otherwise (h : ∀ first last, waypoints.head? = some first →
    waypoints.getLast? = some last → isFinite (last.target.time - first.target.time) = true →
      ¬ 0.0 < last.target.time - first.target.time) : summary.duration = 0.0

/-- The totals are collected from the speeds and the lengths of the pairs. -/
theorem ofSequence_eq [Geodesy α] (limits : Limits α) (waypoints : List (Waypoint α)) :
    ofSequence limits waypoints =
      { waypointCount := waypoints.length
        legCount := waypoints.length - 1
        distance := (Legs.lengths waypoints).foldl addFinite 0.0
        duration := durationOf waypoints
        maxSpeed := (Legs.speeds waypoints).foldl fmax 0.0
        tiers := ((Legs.speeds waypoints).map limits.tier).foldl TierCounts.add .zero
        minAltitude := reduce fmin (finiteAltitudes waypoints)
        maxAltitude := reduce fmax (finiteAltitudes waypoints) } := by
  have hspeeds : ((Legs.pairs waypoints).map (Prod.map Waypoint.target Waypoint.target)).map
      (fun leg => Speed.required leg.1 leg.2) = Legs.speeds waypoints := List.map_map
  have hlengths : ((Legs.pairs waypoints).map (Prod.map Waypoint.target Waypoint.target)).map
      (fun leg => Speed.length leg.1 leg.2) = Legs.lengths waypoints := List.map_map
  simp only [ofSequence, Legs.zip_tail_eq_pairs]
  rw [hspeeds, hlengths]

variable [LawfulComparison α]

/-- Choosing between one altitude and the next leaves an end of the range. -/
theorem isEnd_reduce {R : α → α → Prop} {f : α → α → α} (h : Extreme R f)
    (waypoints : List (Waypoint α)) :
    IsEnd R waypoints (reduce f (finiteAltitudes waypoints)) where
  none_iff := reduce_eq_none_iff.trans finiteAltitudes_eq_nil_iff
  attained hchosen := mem_finiteAltitudes.mp (reduce_eq_some h hchosen).1
  bound := by
    intro altitude hchosen w hw hfinite
    have hmem : w.target.altitude ∈ finiteAltitudes waypoints :=
      mem_finiteAltitudes.mpr ⟨hfinite, w, hw, rfl⟩
    exact (reduce_eq_some h hchosen).2 _ hmem (LawfulComparison.isNaN_of_isFinite hfinite)

/-- The greater of a number and zero is the number, if that is positive. -/
theorem fmax_zero_of_lt {span : α} (hlt : 0.0 < span) : fmax span 0.0 = span := by
  have hnumber := (LawfulComparison.numbers_of_lt hlt).2
  rw [fmax, hnumber, if_neg Bool.false_ne_true, if_pos (.inr hlt)]

/-- And it is zero otherwise. -/
theorem fmax_zero_of_not_lt {span : α} (hlt : ¬ 0.0 < span) : fmax span 0.0 = 0.0 := by
  have hzero : ¬ isNaN (0.0 : α) = true := by
    rw [LawfulComparison.isNaN_zero]
    exact Bool.false_ne_true
  rw [fmax, if_neg (not_or.mpr ⟨hzero, hlt⟩), ite_self]

/-- The duration is the time from the first waypoint to the last, if that is positive and
finite. -/
theorem durationOf_of_lt {first last : Waypoint α} (hfirst : waypoints.head? = some first)
    (hlast : waypoints.getLast? = some last)
    (hfinite : isFinite (last.target.time - first.target.time) = true)
    (hlt : 0.0 < last.target.time - first.target.time) :
    durationOf waypoints = last.target.time - first.target.time := by
  rw [durationOf, hfirst, hlast]
  exact (if_pos hfinite).trans (fmax_zero_of_lt hlt)

/-- Otherwise the duration is zero. -/
theorem durationOf_eq_zero (h : ∀ first last, waypoints.head? = some first →
      waypoints.getLast? = some last → isFinite (last.target.time - first.target.time) = true →
        ¬ 0.0 < last.target.time - first.target.time) :
    durationOf waypoints = 0.0 := by
  unfold durationOf
  split
  · rename_i first last hfirst hlast
    -- A span that is not finite is passed over, and one that is not positive gives way to zero.
    by_cases hfinite : isFinite (last.target.time - first.target.time) = true
    · exact (if_pos hfinite).trans (fmax_zero_of_not_lt (h first last hfirst hlast hfinite))
    · exact if_neg hfinite
  · rfl

/-- The totals of every sequence, under whatever limits and with whatever numbers, say what they
are to say. -/
theorem isExact_ofSequence [Geodesy α] (limits : Limits α) (waypoints : List (Waypoint α)) :
    IsExact limits waypoints (ofSequence limits waypoints) := by
  rw [ofSequence_eq]
  constructor
  case waypointCount => rfl
  case legCount => rfl
  case total_tiers =>
    rw [TierCounts.total_foldl_add, List.length_map, Legs.speeds, List.length_map,
      Legs.length_pairs]
    exact Nat.zero_add _
  case get_tiers =>
    intro tier
    rw [TierCounts.get_foldl_add, List.count, List.countP_map]
    cases tier <;> exact Nat.zero_add _
  case zero_le_maxSpeed =>
    exact Extreme.of_fmax.foldl_bound List.mem_cons_self LawfulComparison.isNaN_zero
  case le_maxSpeed =>
    intro i v w hv hw hnumber
    have hmem : Speed.required v.target w.target ∈ Legs.speeds waypoints :=
      Legs.mem_speeds_iff.mpr ⟨i, v, w, hv, hw, rfl⟩
    exact Extreme.of_fmax.foldl_bound (List.mem_cons_of_mem _ hmem) hnumber
  case maxSpeed_attained =>
    rw [← Legs.mem_speeds_iff]
    exact List.mem_cons.mp (Extreme.of_fmax.foldl_mem 0.0 (Legs.speeds waypoints))
  case distance => exact List.foldl_filter.symm
  case minAltitude => exact isEnd_reduce .of_fmin waypoints
  case maxAltitude => exact isEnd_reduce .of_fmax waypoints
  case duration_of_lt => exact durationOf_of_lt
  case duration_otherwise => exact durationOf_eq_zero

/-- The corner, and then a waypoint whose altitude was lost. -/
def strayed : List (Waypoint Float) :=
  Legs.corner ++ [Legs.waypointOf 4 35.0018 51.0011 (0.0 / 0.0) 50.0]

/-- With an altitude lost there still are a range and a duration, and the leg that leads there is
counted like the others. -/
theorem isExact_ofSequence_strayed :
    (ofSequence Limits.standard strayed).tiers.total = 3
      ∧ (ofSequence Limits.standard strayed).duration = 50.0 - 0.0
      ∧ ∃ high, (ofSequence Limits.standard strayed).maxAltitude = some high ∧ 120.0 ≤ high := by
  have h := isExact_ofSequence (Limits.standard : Limits Float) strayed
  have hfirst : strayed.head? = some (Legs.waypointOf 1 35.0 51.0 100.0 0.0) := rfl
  have hlast : strayed.getLast? = some (Legs.waypointOf 4 35.0018 51.0011 (0.0 / 0.0) 50.0) := rfl
  have htop : Legs.waypointOf 3 35.0009 51.0011 120.0 40.0 ∈ strayed :=
    List.mem_of_getElem? (i := 2) rfl
  have hfinite : isFinite (120.0 : Float) = true := by decide
  have htotal : (ofSequence Limits.standard strayed).tiers.total = 4 - 1 :=
    h.total_tiers.trans h.legCount
  have hspan := h.duration_of_lt hfirst hlast (by decide) (by decide)
  refine ⟨htotal, hspan, ?_⟩
  cases hmax : (ofSequence Limits.standard strayed).maxAltitude with
  | none =>
      have hnone := h.maxAltitude.none_iff.mp hmax _ htop
      exact absurd (hfinite.symm.trans hnone) Bool.false_ne_true.symm
  | some high =>
      have hbound := h.maxAltitude.bound hmax htop hfinite
      exact ⟨high, rfl, hbound⟩

end Summary

end FlightPlan
