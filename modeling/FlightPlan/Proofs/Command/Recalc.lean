import FlightPlan.Program
import FlightPlan.Proofs.Document.Finite
import FlightPlan.Proofs.Heading
import FlightPlan.Proofs.Plan.Sound
import FlightPlan.Proofs.Program.Validate
import FlightPlan.Proofs.Speed

/-!
# `FlightPlan.Proofs.Command.Recalc`: computing legs of computed waypoints

The output of a recalculation is a trajectory file again. Is it read as the waypoints it was
written from, and are they left as they are the second time?

Legs follow from targets, so a second computation changes nothing (`Command.recalc_recalc`). Of
the numbers of a result only the speeds can fail to be finite: targets come from a document
(`Waypoint.isFinite_of_listOfText?`), and headings are finite by themselves
(`Heading.isFinite_toward`). But a speed is a quotient, and a time that is short enough makes it
infinite. A document cannot say so, and has `null` instead, which is not read as a speed
(`Waypoint.ofJson?_toJson_of_speed`). `Command.recalc_own_output` says that nothing else keeps
the output from being read.
-/

set_option autoImplicit false

namespace FlightPlan

/-! ### Speeds that are not written -/

namespace Waypoint

variable {naming : HeadingMode.Naming} (ids : FreshIds)

/-- A record whose speed is no number is no waypoint. -/
theorem ofRecord?_of_speed {id : WaypointId} {r : Json.Record}
    (h : r.getD "estimated_speed_mps" Json.float? (0.0 : Float) = none) :
    ofRecord? naming id r = none := by
  simp [ofRecord?, h]

/-- A waypoint whose speed is not finite is not read back. -/
theorem ofJson?_toJson_of_speed {w : Waypoint Float} (h : w.leg.speed.isFinite = false)
    (next : Nat) : ofJson? naming ids next w.toJson = none := by
  obtain ⟨members, hrecord, hmembers⟩ := exists_record_toJson w
  obtain rfl := Json.object.inj hmembers
  have hspeed : (Json.ofFloat w.leg.speed).float? = none := by
    rw [Json.ofFloat, h]
    rfl
  rw [ofJson?, hrecord]
  simp only [Option.bind_eq_bind, Option.bind_some]
  rw [ofRecord?_of_speed, Option.bind_none]
  simp [Json.Record.getD, Json.Record.get?, List.lookup_cons, hspeed]

/-- One waypoint that is not read leaves no list. -/
theorem listOfJson?_eq_none {items : List Json} {j : Json} (hj : j ∈ items)
    (h : ∀ next, ofJson? naming ids next j = none) (next : Nat) :
    listOfJson? naming ids next items = none := by
  -- How many identifiers were given away before the item makes no difference.
  induction items generalizing next with
  | nil => exact nomatch hj
  | cons item rest ih =>
      rw [listOfJson?]
      rcases List.mem_cons.mp hj with rfl | hrest
      · rw [h]
        rfl
      · cases ofJson? naming ids next item with
        | none => rfl
        | some read => simp [ih hrest]

/-- Waypoints are read back from a file when all their speeds are finite, provided that nothing
else in them fails to be. -/
theorem listOfText?_text_of_speeds (style : Json.Style) {waypoints : List (Waypoint Float)}
    (h : ∀ w ∈ waypoints, ∀ x ∈ w.numbers, x.isFinite = true → Json.ReadsBack x)
    (hfinite : ∀ w ∈ waypoints, w.leg.speed.isFinite = true → ∀ x ∈ w.numbers, x.isFinite = true)
    (blanks : List Char) (hblanks : ∀ c ∈ blanks, Json.Token.isBlank c = true) :
    listOfText? ids ((listToJson waypoints).text style ++ String.ofList blanks)
      = if waypoints.all (·.leg.speed.isFinite) then some waypoints else none := by
  by_cases hspeeds : ∀ w ∈ waypoints, w.leg.speed.isFinite = true
  · rw [if_pos (List.all_eq_true.mpr hspeeds)]
    refine listOfText?_text ids style (fun w hw x hx => ?_) blanks hblanks
    have hx' := hfinite w hw (hspeeds w hw) x hx
    exact ⟨hx', h w hw x hx hx'⟩
  · rw [if_neg (mt List.all_eq_true.mp hspeeds), listOfText?_text_eq ids style h blanks hblanks]
    simp only [not_forall, Bool.not_eq_true] at hspeeds
    obtain ⟨w, hw, hspeed⟩ := hspeeds
    rw [listOfJson?_eq_none ids (List.mem_map_of_mem hw) (ofJson?_toJson_of_speed ids hspeed)]
    rfl

end Waypoint

/-! ### Recalculation -/

namespace Command

section
variable [Geodesy Float] {settings : Settings} {waypoints result : List (Waypoint Float)}

/-- Waypoints that make a plan are recalculated. -/
theorem recalc_eq_ok_iff :
    recalc settings waypoints = .ok result ↔
      ((∀ w ∈ waypoints, w.target.isPlaced = true) ∧ (Legs.ids waypoints).Nodup)
        ∧ result = Legs.recompute settings.limits waypoints := by
  rw [recalc, bind_eq_ok_iff]
  constructor
  · rintro ⟨plan, hplan, hresult⟩
    rw [load, mapError_eq_ok_iff] at hplan
    obtain ⟨hgiven, rfl⟩ := Plan.ofWaypoints_eq_ok_iff.mp hplan
    exact ⟨hgiven, (Except.ok.inj hresult).symm⟩
  · rintro ⟨hgiven, rfl⟩
    refine ⟨⟨0, settings.limits, Legs.recompute settings.limits waypoints⟩, ?_, rfl⟩
    rw [load, mapError_eq_ok_iff]
    exact Plan.ofWaypoints_eq_ok_iff.mpr ⟨hgiven, rfl⟩

/-- A second recalculation changes nothing. -/
theorem recalc_recalc (h : recalc settings waypoints = .ok result) :
    recalc settings result = .ok result := by
  obtain ⟨⟨hplaced, hdistinct⟩, rfl⟩ := recalc_eq_ok_iff.mp h
  refine recalc_eq_ok_iff.mpr ⟨⟨?_, ?_⟩, (Legs.recompute_recompute _ _).symm⟩
  · exact Legs.forall_target_recompute (P := fun target => target.isPlaced = true).mpr hplaced
  · rwa [Legs.ids_congr (Legs.map_target_recompute _ _)]

/-- Only the speed of a computed waypoint can fail to be finite. -/
theorem isFinite_recompute (limits : Limits Float)
    (hfinite : ∀ w ∈ waypoints, ∀ x ∈ w.numbers, x.isFinite = true) :
    ∀ w ∈ Legs.recompute limits waypoints, w.leg.speed.isFinite = true →
      ∀ x ∈ w.numbers, x.isFinite = true := by
  intro w hw hspeed
  obtain ⟨p, hp, rfl⟩ := List.mem_map.mp hw
  have hhere : p.here ∈ waypoints := by
    rw [← Legs.map_here_placed waypoints]
    exact List.mem_map_of_mem hp
  obtain ⟨hposition, hmode, -⟩ := Waypoint.forall_mem_numbers.mp (hfinite p.here hhere)
  -- A waypoint without a leg has the course zero.
  have hcourse : (p.course?.getD 0.0).isFinite = true := by
    rw [Placed.course?]
    cases p.ends with
    | none =>
        show (0.0 : Float).isFinite = true
        decide
    | some ends => exact Heading.isFinite_toward _ _
  exact Waypoint.forall_mem_numbers.mpr
    ⟨hposition, hmode, HeadingMode.isFinite_effective _ hcourse, hspeed, hcourse⟩

/-- The output of a recalculation is a trajectory file exactly when all its speeds are finite.
It holds the result then, and recalculating the result changes nothing. -/
theorem recalc_own_output {ids : FreshIds} (ids' : FreshIds) {text : String}
    (hread : Waypoint.listOfText? ids text = some waypoints)
    (hresult : recalc settings waypoints = .ok result)
    (hprint : ∀ w ∈ result, ∀ x ∈ w.numbers, x.isFinite = true → Json.ReadsBack x) :
    Waypoint.listOfText? ids' (Program.printed (Waypoint.listToJson result))
        = (if result.all (·.leg.speed.isFinite) then some result else none)
      ∧ recalc settings result = .ok result := by
  refine ⟨?_, recalc_recalc hresult⟩
  obtain ⟨-, rfl⟩ := recalc_eq_ok_iff.mp hresult
  have hfinite := isFinite_recompute settings.limits (Waypoint.isFinite_of_listOfText? hread)
  exact Waypoint.listOfText?_text_of_speeds ids' .pretty hprint hfinite ['\n']
    (List.all_eq_true.mp rfl)

end

/-- The climb is read, recalculated, written and read again. -/
theorem recalc_own_output_climb :
    letI : Elementary Float := .atZero
    ∃ text result, Waypoint.listOfText? Legs.idOf text = some Plan.climb
      ∧ recalc (.ofEnvironment fun _ => none) Plan.climb = .ok result
      ∧ (∀ w ∈ result, ∀ x ∈ w.numbers, x.isFinite = true → Json.ReadsBack x)
      ∧ Waypoint.listOfText? Legs.idOf (Program.printed (Waypoint.listToJson result)) = some result
      ∧ recalc (.ofEnvironment fun _ => none) result = .ok result := by
  let _ : Elementary Float := .atZero
  have hgiven : ∀ w ∈ Plan.climb, ∀ x ∈ w.numbers, Json.Durable x := by decide +kernel
  have hread : Waypoint.listOfText? Legs.idOf (Program.printed (Waypoint.listToJson Plan.climb))
      = some Plan.climb :=
    Waypoint.listOfText?_text _ .pretty hgiven ['\n'] (List.all_eq_true.mp rfl)
  have hresult : recalc (.ofEnvironment fun _ => none) Plan.climb
      = .ok (Legs.recompute Limits.standard Plan.climb) :=
    recalc_eq_ok_iff.mpr ⟨⟨by decide +kernel, by decide +kernel⟩, rfl⟩
  have hprint : ∀ w ∈ Legs.recompute Limits.standard Plan.climb, ∀ x ∈ w.numbers,
      x.isFinite = true → Json.ReadsBack x := by
    decide +kernel
  have hspeeds :
      (Legs.recompute Limits.standard Plan.climb).all (·.leg.speed.isFinite) = true := by
    decide +kernel
  have houtput := recalc_own_output Legs.idOf hread hresult hprint
  rw [if_pos hspeeds] at houtput
  exact ⟨_, _, hread, hresult, hprint, houtput.1, houtput.2⟩

/-- A climb in next to no time. -/
def sprint : List (Waypoint Float) :=
  [Legs.waypointOf 1 0.0 0.0 0.0 0.0, Legs.waypointOf 2 0.0 0.0 100.0 1e-308]

/-- The sprint is read and recalculated, and the output is refused. -/
theorem recalc_sprint_refused :
    letI : Elementary Float := .atZero
    ∃ text result, (Settings.ofEnvironment fun _ => none).fault? = none
      ∧ Waypoint.listOfText? Legs.idOf text = some sprint
      ∧ recalc (.ofEnvironment fun _ => none) sprint = .ok result
      ∧ (∀ w ∈ result, ∀ x ∈ w.numbers, x.isFinite = true → Json.ReadsBack x)
      ∧ Waypoint.listOfText? Legs.idOf (Program.printed (Waypoint.listToJson result)) = none := by
  let _ : Elementary Float := .atZero
  have hgiven : ∀ w ∈ sprint, ∀ x ∈ w.numbers, Json.Durable x := by decide +kernel
  have hread : Waypoint.listOfText? Legs.idOf (Program.printed (Waypoint.listToJson sprint))
      = some sprint :=
    Waypoint.listOfText?_text _ .pretty hgiven ['\n'] (List.all_eq_true.mp rfl)
  have hresult : recalc (.ofEnvironment fun _ => none) sprint
      = .ok (Legs.recompute Limits.standard sprint) :=
    recalc_eq_ok_iff.mpr ⟨⟨by decide +kernel, by decide +kernel⟩, rfl⟩
  have hprint : ∀ w ∈ Legs.recompute Limits.standard sprint, ∀ x ∈ w.numbers,
      x.isFinite = true → Json.ReadsBack x := by
    decide +kernel
  have hspeeds : ¬ (Legs.recompute Limits.standard sprint).all (·.leg.speed.isFinite) = true := by
    decide +kernel
  have hother := isFinite_recompute Limits.standard fun w hw x hx => (hgiven w hw x hx).1
  refine ⟨_, _, rfl, hread, hresult, hprint, ?_⟩
  have houtput := Waypoint.listOfText?_text_of_speeds Legs.idOf .pretty hprint hother
    ['\n'] (List.all_eq_true.mp rfl)
  rw [if_neg hspeeds] at houtput
  exact houtput

end Command

end FlightPlan
