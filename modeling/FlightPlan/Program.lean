import FlightPlan.Arguments
import FlightPlan.Command
import FlightPlan.Json.Printer

/-!
# `FlightPlan.Program`: from a command line to its outcome

`Program.run` is the whole program as a function of its surroundings: the
environment, the files, and sources of fresh identifiers and randomness. Like the
commands it runs on any Earth (`Geodesy`), and on a machine on the sphere. It
reads the rules file, checks the settings, reads the terrain file, then the
trajectory file, and then carries out the task. The output is a document and a
line end. The exit code is `0` for success, `1` for a fault or an invalid
report, and `2` for a usage error.
-/

set_option autoImplicit false

namespace FlightPlan

/-- What the program finds around it. -/
structure Surroundings where
  env : Environment
  files : Files
  ids : FreshIds
  /-- Randomness for demonstrations without a seed. -/
  entropy : Entropy

/-- What the program leaves behind. -/
structure Outcome where
  exitCode : UInt8
  output : String
  fault : Option CommandFault

namespace Program

/-- The name and version of the program. -/
def versionText : String := "planner-cli 0.2.0"

/-- How the program is used. -/
def helpText : String :=
  "\n".intercalate [
    "Usage: planner [OPTIONS] <COMMAND>", "",
    "Commands:",
    "  recalc    Recompute speeds and headings for every waypoint",
    "  drag      Move one waypoint to a new index and refresh the affected legs",
    "  validate  Report time ordering, speed ceiling and optional ground clearance issues",
    "  summary   Print distance, duration and per-tier leg counts",
    "  heading   Bearing between two points",
    "  generate  Generate a demo trajectory around the home position", "",
    "Options:",
    "  --rules <RULES>  JSON file with feasibility thresholds, overriding the environment",
    "  --json-logs      Emit logs as JSON",
    "  -h, --help       Print help",
    "  -V, --version    Print version"]

/-- A document as output. -/
def printed (j : Json) : String :=
  j.text .pretty ++ "\n"

variable [Geodesy Float]

/-- The document that a task results in, and whether it is a success. -/
def perform (around : Surroundings) (settings : Settings) :
    Task → Except CommandFault (Json × Bool)
  | .recalc path => do
    let waypoints ← around.files.waypoints around.ids path
    let result ← Command.recalc settings waypoints
    .ok (Waypoint.listToJson result, true)
  | .drag path id index => do
    let waypoints ← around.files.waypoints around.ids path
    let result ← Command.drag settings waypoints id index
    .ok (Waypoint.listToJson result, true)
  | .validate path terrainPath => do
    let grid ← terrainPath.mapM around.files.grid
    let waypoints ← around.files.waypoints around.ids path
    let report ← Command.validate settings waypoints (grid.map Grid.sample)
    .ok (report.toJson, report.valid)
  | .summary path => do
    let waypoints ← around.files.waypoints around.ids path
    let summary ← Command.summary settings waypoints
    .ok (summary.toJson, true)
  | .heading origin goal => .ok (Command.heading origin goal, true)
  | .generate count seed =>
    let entropy := (seed.map Entropy.ofSeed).getD around.entropy
    .ok (Waypoint.listToJson (Command.generate settings around.ids entropy count), true)

/-- The document that a command line results in, and whether it is a success. -/
def execute (around : Surroundings) (invocation : Invocation) :
    Except CommandFault (Json × Bool) := do
  let settings ← Settings.load around.env around.files invocation.rulesPath
  perform around settings invocation.task

/-- The outcome of a command line that names a task. -/
def runTask (around : Surroundings) (invocation : Invocation) : Outcome :=
  match execute around invocation with
  | .ok (document, success) => ⟨if success then 0 else 1, printed document, none⟩
  | .error fault => ⟨1, "", some fault⟩

/-- The outcome of a command line that names none. -/
def interrupted : Interruption → Outcome
  | .usage => ⟨2, "", none⟩
  | .help => ⟨0, helpText ++ "\n", none⟩
  | .version => ⟨0, versionText ++ "\n", none⟩

/-- The outcome of a command line. -/
def run (around : Surroundings) (arguments : List String) : Outcome :=
  match Invocation.read arguments with
  | .error interruption => interrupted interruption
  | .ok invocation => runTask around invocation

end Program

end FlightPlan
