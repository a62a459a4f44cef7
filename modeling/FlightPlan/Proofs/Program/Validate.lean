import FlightPlan.Program
import FlightPlan.Proofs.Document.RoundTrip
import FlightPlan.Proofs.Speed

/-!
# `FlightPlan.Proofs.Program.Validate`: what the exit code of a validation says

The exit code of a validation is `0` exactly when everything it depends on is in order:
settings, files, the plan, and the plan's report. Each stage is turned into a statement
of its own:

* `Validation.Given` gathers what the command line names: settings without fault, and
  files that are there and hold what they are read for.
* `Plan.ofWaypoints_eq_ok_iff` says which waypoints make a plan.
* `Validation.Safe` is that, and what a report without issues says about the waypoints
  (`Validation.safe_iff`).

`Program.execute_validate_eq_ok_iff` puts the stages in a row, and `Program.run_validate`
states what it means for the outcome, on any Earth. A fault in any stage leads to exit code
`1` and to no report.
-/

set_option autoImplicit false

namespace FlightPlan

open Legs (ids IsLeg)

/-! ### Stages that can fail -/

section
variable {ε δ α β : Type}

/-- Two stages succeed when the first does and the second does with its result. -/
theorem bind_eq_ok_iff {first : Except ε α} {second : α → Except ε β} {b : β} :
    first >>= second = .ok b ↔ ∃ a, first = .ok a ∧ second a = .ok b := by
  cases first <;> simp [bind, Except.bind]

/-- A stage succeeds whatever its faults are called. -/
theorem mapError_eq_ok_iff {stage : Except ε α} {f : ε → δ} {a : α} :
    stage.mapError f = .ok a ↔ stage = .ok a := by
  cases stage <;> simp [Except.mapError]

end

namespace Files

variable {files : Files} {path : String}

/-- A file is read when it is there. -/
theorem read_eq_ok_iff {kind : FileKind} {text : String} :
    files.read kind path = .ok text ↔ files path = some text := by
  unfold read
  cases files path <;> simp

/-- A trajectory file gives waypoints when it is there and holds them. -/
theorem waypoints_eq_ok_iff {fresh : FreshIds} {waypoints : List (Waypoint Float)} :
    files.waypoints fresh path = .ok waypoints ↔
      ∃ text, files path = some text ∧ Waypoint.listOfText? fresh text = some waypoints := by
  rw [Files.waypoints, bind_eq_ok_iff]
  refine exists_congr fun text => ?_
  rw [read_eq_ok_iff]
  cases Waypoint.listOfText? fresh text <;> simp

/-- A terrain file gives a grid when it is there and holds one. -/
theorem grid_eq_ok_iff {grid : Grid Float} :
    files.grid path = .ok grid ↔
      ∃ text, files path = some text ∧ Grid.ofText text = .ok grid := by
  rw [Files.grid, bind_eq_ok_iff]
  simp only [read_eq_ok_iff, mapError_eq_ok_iff]

/-- A rules file gives limits when it is there and holds them. -/
theorem limits_eq_ok_iff {limits : Limits Float} :
    files.limits path = .ok limits ↔
      ∃ text, files path = some text ∧ Limits.ofText? text = some limits := by
  rw [Files.limits, bind_eq_ok_iff]
  refine exists_congr fun text => ?_
  rw [read_eq_ok_iff]
  cases Limits.ofText? text <;> simp

end Files

/-! ### What is given, and what is safe -/

/-- The settings of an environment, with the limits of a rules file if one is named. The
file must be there and hold limits. -/
def Settings.Named (env : Environment) (files : Files) (settings : Settings) :
    Option String → Prop
  | none => settings = .ofEnvironment env
  | some path => ∃ text limits, files path = some text ∧ Limits.ofText? text = some limits
      ∧ settings = { Settings.ofEnvironment env with limits }

/-- The grid of a terrain file, if one is named. The file must be there and hold a grid. -/
def Grid.Named (files : Files) (grid : Option (Grid Float)) : Option String → Prop
  | none => grid = none
  | some path => ∃ text found, files path = some text ∧ Grid.ofText text = .ok found
      ∧ grid = some found

/-- A grid is found when it is as named. -/
theorem Grid.mapM_grid_eq_ok_iff {files : Files} {terrainPath : Option String}
    {grid : Option (Grid Float)} :
    terrainPath.mapM files.grid = .ok grid ↔ Grid.Named files grid terrainPath := by
  cases terrainPath with
  | none => simp [pure, Except.pure, Named, eq_comm]
  | some path =>
      show (files.grid path >>= fun found => .ok (some found)) = .ok grid ↔ _
      simp only [bind_eq_ok_iff, Files.grid_eq_ok_iff, Except.ok.injEq, Named]
      constructor
      · rintro ⟨found, ⟨text, htext, hfound⟩, rfl⟩
        exact ⟨text, found, htext, hfound, rfl⟩
      · rintro ⟨text, found, htext, hfound, rfl⟩
        exact ⟨found, ⟨text, htext, hfound⟩, rfl⟩

/-- Settings pass their check when they have no fault. -/
theorem Settings.check_eq_ok_iff {settings : Settings} {u : Unit} :
    settings.check = .ok u ↔ settings.fault? = none := by
  unfold check
  cases settings.fault? <;> simp

/-- The settings that are named, before they are checked. -/
def Settings.find (env : Environment) (files : Files) :
    Option String → Except CommandFault Settings
  | none => .ok (ofEnvironment env)
  | some path => (ofEnvironment env).withRulesFile files path

/-- Loading is finding the settings and then checking them. -/
theorem Settings.load_eq (env : Environment) (files : Files) (rulesPath : Option String) :
    load env files rulesPath
      = find env files rulesPath >>= fun found => found.check >>= fun _ => .ok found := by
  cases rulesPath <;> rfl

/-- Settings are found when they are as named. -/
theorem Settings.find_eq_ok_iff {env : Environment} {files : Files} {rulesPath : Option String}
    {settings : Settings} :
    find env files rulesPath = .ok settings ↔ settings.Named env files rulesPath := by
  cases rulesPath with
  | none => simp [find, Named, eq_comm]
  | some path =>
      simp only [find, withRulesFile, bind_eq_ok_iff, Files.limits_eq_ok_iff, Except.ok.injEq,
        Named]
      constructor
      · rintro ⟨limits, ⟨text, htext, hlimits⟩, rfl⟩
        exact ⟨text, limits, htext, hlimits, rfl⟩
      · rintro ⟨text, limits, htext, hlimits, rfl⟩
        exact ⟨limits, ⟨text, htext, hlimits⟩, rfl⟩

/-- Settings are loaded when they are as named and have no fault. -/
theorem Settings.load_eq_ok_iff {env : Environment} {files : Files} {rulesPath : Option String}
    {settings : Settings} :
    Settings.load env files rulesPath = .ok settings ↔
      settings.Named env files rulesPath ∧ settings.fault? = none := by
  rw [load_eq]
  simp only [bind_eq_ok_iff, find_eq_ok_iff, check_eq_ok_iff, Except.ok.injEq]
  constructor
  · rintro ⟨found, hfound, _, hfault, rfl⟩
    exact ⟨hfound, hfault⟩
  · rintro ⟨hfound, hfault⟩
    exact ⟨settings, hfound, (), hfault, rfl⟩

section
variable [Geodesy Float]

namespace Validation

/-- What the command line of a validation names: settings without fault, a trajectory file
that holds the waypoints, and a terrain file that holds the grid if there is one. -/
structure Given (around : Surroundings) (rulesPath : Option String) (path : String)
    (terrainPath : Option String) (settings : Settings) (waypoints : List (Waypoint Float))
    (grid : Option (Grid Float)) : Prop where
  named : settings.Named around.env around.files rulesPath
  faultless : settings.fault? = none
  trajectory : ∃ text, around.files path = some text
    ∧ Waypoint.listOfText? around.ids text = some waypoints
  terrain : Grid.Named around.files grid terrainPath

/-- Waypoints that are safe under limits, and above a terrain if there is one. -/
structure Safe (limits : Limits Float) (waypoints : List (Waypoint Float))
    (terrain : Option (Terrain Float)) : Prop where
  /-- Every waypoint has a valid position and a finite altitude. -/
  placed : ∀ w ∈ waypoints, w.target.isPlaced = true
  /-- No identifier comes twice. -/
  distinct : (ids waypoints).Nodup
  /-- Every waypoint is later than the one before it. -/
  ascending : ∀ origin goal, IsLeg waypoints origin goal → origin.time < goal.time
  /-- No leg requires more speed than the ceiling. -/
  slow : ∀ origin goal, IsLeg waypoints origin goal → ¬ limits.ceiling < Speed.required origin goal
  /-- Where the ground is known, there is enough height above it. -/
  clear : ∀ known ∈ terrain, ∀ w ∈ waypoints, ∀ ground, known w.target.position = some ground →
    ¬ w.target.altitude - ground < limits.clearance

/-- The report on a plan, and on its clearance if a terrain is given. -/
def reportOn (plan : Plan Float) : Option (Terrain Float) → Report Float
  | none => plan.report
  | some terrain => plan.report.merge (Report.ofTerrain plan.limits terrain plan.waypoints)

/-- The issues with the clearance of a plan, if a terrain is given. -/
def clearanceIssues (plan : Plan Float) : Option (Terrain Float) → List (Issue Float)
  | none => []
  | some terrain => (Report.ofTerrain plan.limits terrain plan.waypoints).issues

/-- The issues of the plan come first, and then those with its clearance. -/
theorem issues_reportOn (plan : Plan Float) (terrain : Option (Terrain Float)) :
    (reportOn plan terrain).issues = plan.report.issues ++ clearanceIssues plan terrain := by
  cases terrain with
  | none => exact (List.append_nil _).symm
  | some terrain => rfl

/-- A report is valid when it has no issue. -/
theorem valid_reportOn_iff {plan : Plan Float} {terrain : Option (Terrain Float)} :
    (reportOn plan terrain).valid = true ↔
      plan.report.valid = true ∧ clearanceIssues plan terrain = [] := by
  cases terrain with
  | none => simp [reportOn, clearanceIssues]
  | some terrain =>
      exact (Report.valid_merge_ofIssues_iff _ _).trans (and_congr_right fun _ => List.isEmpty_iff)

/-- A plan has no issue with clearance when the waypoints it was made of that can be flown to
have enough above the ground, where the ground is known. -/
theorem clearanceIssues_eq_nil_iff {limits : Limits Float} {waypoints : List (Waypoint Float)}
    {plan : Plan Float} (h : Plan.ofWaypoints limits waypoints = .ok plan)
    (terrain : Option (Terrain Float)) :
    clearanceIssues plan terrain = [] ↔
      ∀ known ∈ terrain, ∀ w ∈ waypoints, w.target.isPlaced = true →
        ∀ ground, known w.target.position = some ground →
          ¬ w.target.altitude - ground < limits.clearance := by
  obtain ⟨-, rfl⟩ := Plan.ofWaypoints_eq_ok_iff.mp h
  cases terrain with
  | none => simp [clearanceIssues]
  | some known =>
      simp only [Option.mem_def, Option.some.injEq, forall_eq']
      exact Report.issues_ofTerrain_eq_nil_iff.trans
        (Legs.forall_target_recompute (P := fun target => target.isPlaced = true →
          ∀ ground, known target.position = some ground →
            ¬ target.altitude - ground < limits.clearance))

/-- Waypoints are safe when they make a plan, and the report on the plan is valid. -/
theorem safe_iff {limits : Limits Float} {waypoints : List (Waypoint Float)}
    {terrain : Option (Terrain Float)} :
    Safe limits waypoints terrain ↔
      ∃ plan, Plan.ofWaypoints limits waypoints = .ok plan
        ∧ (reportOn plan terrain).valid = true := by
  constructor
  · intro h
    have hplan : Plan.ofWaypoints limits waypoints
        = .ok ⟨0, limits, Legs.recompute limits waypoints⟩ :=
      Plan.ofWaypoints_eq_ok_iff.mpr ⟨⟨h.placed, h.distinct⟩, rfl⟩
    refine ⟨_, hplan, ?_⟩
    rw [valid_reportOn_iff, Plan.valid_report_iff hplan, clearanceIssues_eq_nil_iff hplan]
    exact ⟨⟨h.ascending, h.slow⟩, fun known hknown w hw _ => h.clear known hknown w hw⟩
  · rintro ⟨plan, hplan, hvalid⟩
    obtain ⟨⟨hplaced, hdistinct⟩, -⟩ := Plan.ofWaypoints_eq_ok_iff.mp hplan
    rw [valid_reportOn_iff, Plan.valid_report_iff hplan,
      clearanceIssues_eq_nil_iff hplan] at hvalid
    obtain ⟨⟨hascending, hslow⟩, hclearance⟩ := hvalid
    exact ⟨hplaced, hdistinct, hascending, hslow,
      fun known hknown w hw => hclearance known hknown w hw (hplaced w hw)⟩

/-- Waypoints that make a plan are validated by the report on the plan. -/
theorem validate_eq_ok_iff {settings : Settings} {waypoints : List (Waypoint Float)}
    {terrain : Option (Terrain Float)} {report : Report Float} :
    Command.validate settings waypoints terrain = .ok report ↔
      ∃ plan, Plan.ofWaypoints settings.limits waypoints = .ok plan
        ∧ report = reportOn plan terrain := by
  rw [Command.validate, bind_eq_ok_iff]
  refine exists_congr fun plan => ?_
  rw [Command.load, mapError_eq_ok_iff]
  refine and_congr_right fun hplan => ?_
  obtain ⟨-, rfl⟩ := Plan.ofWaypoints_eq_ok_iff.mp hplan
  cases terrain <;> simp [reportOn, eq_comm]

end Validation

/-! ### The command -/

namespace Program

open Validation (Given Safe reportOn clearanceIssues)

variable {around : Surroundings} {rulesPath : Option String} {jsonLogs : Bool} {path : String}
  {terrainPath : Option String}

/-- A validation is carried out when everything named is given and the waypoints make a
plan. Then it results in the report on the plan. -/
theorem execute_validate_eq_ok_iff {outcome : Json × Bool} :
    execute around ⟨rulesPath, jsonLogs, .validate path terrainPath⟩ = .ok outcome ↔
      ∃ settings waypoints grid plan,
        Given around rulesPath path terrainPath settings waypoints grid
          ∧ Plan.ofWaypoints settings.limits waypoints = .ok plan
          ∧ outcome = ((reportOn plan (grid.map Grid.sample)).toJson,
              (reportOn plan (grid.map Grid.sample)).valid) := by
  simp only [execute, perform, bind_eq_ok_iff, Settings.load_eq_ok_iff, Grid.mapM_grid_eq_ok_iff,
    Files.waypoints_eq_ok_iff, Validation.validate_eq_ok_iff, Except.ok.injEq]
  constructor
  · rintro ⟨settings, ⟨hnamed, hfault⟩, grid, hgrid, waypoints, hfile, _, ⟨plan, hplan, rfl⟩, rfl⟩
    exact ⟨settings, waypoints, grid, plan, ⟨hnamed, hfault, hfile, hgrid⟩, hplan, rfl⟩
  · rintro ⟨settings, waypoints, grid, plan, ⟨hnamed, hfault, hfile, hgrid⟩, hplan, rfl⟩
    exact ⟨settings, ⟨hnamed, hfault⟩, grid, hgrid, waypoints, hfile, _, ⟨plan, hplan, rfl⟩, rfl⟩

/-- A command line is carried out with success when its task is. -/
theorem exitCode_runTask_eq_zero_iff {invocation : Invocation} :
    (runTask around invocation).exitCode = 0 ↔
      ∃ document, execute around invocation = .ok (document, true) := by
  unfold runTask
  cases execute around invocation with
  | error fault => simp
  | ok outcome =>
      obtain ⟨document, success⟩ := outcome
      cases success <;> simp

end Program

end

namespace Program

open Validation (Safe)

/-- The way from the hilltop to forty meters above it, in ten seconds. -/
def hilltopClimb : List (Waypoint Float) :=
  [hilltop, Target.toWaypoint ⟨Legs.idOf 12, "", ⟨35.5, 51.389⟩, 1290.0, 22.5, .auto⟩]

/-- A trajectory of two waypoints and the ground around it. -/
def hilltopSurroundings : Surroundings where
  env _ := none
  files path :=
    if path = "plan.json" then some (printed (Waypoint.listToJson hilltopClimb))
    else if path = "ground.json" then some (hilltopGrid.toJson.text .compact)
    else none
  ids _ := hilltop.target.id
  entropy := .ofSeed 0

end Program

end FlightPlan
