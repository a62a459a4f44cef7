import FlightPlan.Clearance
import FlightPlan.Entropy
import FlightPlan.Settings
import FlightPlan.Document.Grid
import FlightPlan.Document.Plan
import FlightPlan.Document.Report

/-!
# `FlightPlan.Command`: what the program does

The commands as functions of their settings and of what their files hold, on
any Earth (`Geodesy`). Commands that work on waypoints load them into a plan
first, and so refuse waypoints that cannot be in one. Whatever can go wrong is a
`CommandFault`, which tells where it happened, from the outermost circumstance to
the cause.
-/

set_option autoImplicit false

namespace FlightPlan

/-- What a file is read for. -/
inductive FileKind where
  | trajectory
  | terrain
  | rules
deriving DecidableEq, Repr

/-- The name of a kind of file in messages. -/
def FileKind.text : FileKind → String
  | .trajectory => "trajectory"
  | .terrain => "terrain"
  | .rules => "rules"

/-- Why a command was not carried out. -/
inductive CommandFault where
  /-- A file is not there or not readable. -/
  | unreadable (kind : FileKind) (path : String)
  /-- A text does not hold waypoints. -/
  | malformedWaypoints
  /-- A trajectory file does not hold waypoints. -/
  | malformedTrajectory (path : String)
  /-- A terrain file does not hold a grid. -/
  | malformedTerrain (path : String) (cause : GridReadError)
  /-- A rules file does not hold limits. -/
  | malformedRules (path : String)
  /-- The settings have a fault. -/
  | settings (cause : SettingsFault)
  /-- The waypoints cannot be in a plan. -/
  | loading (cause : EditError Float)
  /-- A waypoint cannot be taken to an index. -/
  | moving (id : WaypointId) (index : Nat) (cause : EditError Float)

namespace CommandFault

/-- The circumstances of a fault, from the outermost to the cause. Causes that
lie in the form of a text or in a file system are left out. -/
def chain : CommandFault → List String
  | .unreadable kind path => ["reading " ++ kind.text ++ " file " ++ path]
  | .malformedWaypoints => ["parsing waypoint JSON"]
  | .malformedTrajectory path => ["in trajectory file " ++ path, "parsing waypoint JSON"]
  | .malformedTerrain path .malformed => ["parsing terrain file " ++ path]
  | .malformedTerrain path (.refused fault) => ["parsing terrain file " ++ path, fault.message]
  | .malformedRules path => ["parsing rules file " ++ path]
  | .settings cause => [cause.message]
  | .loading cause => ["loading trajectory", cause.message]
  | .moving id index cause =>
    ["moving waypoint " ++ id.toText ++ " to index " ++ index.repr, cause.message]

/-- All circumstances on one line. -/
def message (fault : CommandFault) : String :=
  ": ".intercalate fault.chain

/-- The outermost circumstance. -/
def headline (fault : CommandFault) : String :=
  fault.chain.headD ""

end CommandFault

/-! ### Files -/

/-- The contents of files by path. -/
abbrev Files := String → Option String

namespace Files

/-- The text of a file. -/
def read (files : Files) (kind : FileKind) (path : String) : Except CommandFault String :=
  match files path with
  | some text => .ok text
  | none => .error (.unreadable kind path)

/-- The waypoints of a trajectory file. -/
def waypoints (files : Files) (ids : FreshIds) (path : String) :
    Except CommandFault (List (Waypoint Float)) := do
  let text ← files.read .trajectory path
  match Waypoint.listOfText? ids text with
  | some waypoints => .ok waypoints
  | none => .error (.malformedTrajectory path)

/-- The grid of a terrain file. -/
def grid (files : Files) (path : String) : Except CommandFault (Grid Float) := do
  let text ← files.read .terrain path
  (Grid.ofText text).mapError (.malformedTerrain path)

/-- The limits of a rules file. -/
def limits (files : Files) (path : String) : Except CommandFault (Limits Float) := do
  let text ← files.read .rules path
  match Limits.ofText? text with
  | some limits => .ok limits
  | none => .error (.malformedRules path)

end Files

namespace Settings

/-- The settings under the limits of a rules file. -/
def withRulesFile (settings : Settings) (files : Files) (path : String) :
    Except CommandFault Settings := do
  let limits ← files.limits path
  .ok { settings with limits }

/-- Refuses settings with a fault. -/
def check (settings : Settings) : Except CommandFault Unit :=
  match settings.fault? with
  | none => .ok ()
  | some fault => .error (.settings fault)

/-- The settings of an environment and perhaps a rules file, without fault. -/
def load (env : Environment) (files : Files) (rulesPath : Option String) :
    Except CommandFault Settings := do
  let settings ←
    match rulesPath with
    | none => .ok (ofEnvironment env)
    | some path => (ofEnvironment env).withRulesFile files path
  settings.check
  .ok settings

end Settings

/-! ### Commands -/

namespace Command

variable [Geodesy Float]

/-- Waypoints loaded into a plan. -/
def load (settings : Settings) (waypoints : List (Waypoint Float)) :
    Except CommandFault (Plan Float) :=
  (Plan.ofWaypoints settings.limits waypoints).mapError .loading

/-- The waypoints with all legs computed. -/
def recalc (settings : Settings) (waypoints : List (Waypoint Float)) :
    Except CommandFault (List (Waypoint Float)) := do
  let plan ← load settings waypoints
  .ok plan.waypoints

/-- The waypoints with one of them taken to an index. -/
def drag (settings : Settings) (waypoints : List (Waypoint Float)) (id : WaypointId)
    (index : Nat) : Except CommandFault (List (Waypoint Float)) := do
  let plan ← load settings waypoints
  let moved ← (plan.move id index).mapError (.moving id index)
  .ok moved.waypoints

/-- The report on the waypoints, and on their clearance if a terrain is
given. -/
def validate (settings : Settings) (waypoints : List (Waypoint Float))
    (terrain : Option (Terrain Float)) : Except CommandFault (Report Float) := do
  let plan ← load settings waypoints
  match terrain with
  | none => .ok plan.report
  | some terrain =>
    .ok (plan.report.merge (Report.ofTerrain settings.limits terrain plan.waypoints))

/-- The totals of the waypoints. -/
def summary (settings : Settings) (waypoints : List (Waypoint Float)) :
    Except CommandFault (Summary Float) := do
  let plan ← load settings waypoints
  .ok plan.summary

/-- The heading from one position to another as a document, in degrees and as
pilots read it. -/
def heading (origin goal : Position Float) : Json :=
  let degrees := Heading.toward origin goal
  .object [("heading_deg", Json.ofFloat degrees), ("formatted", .string (Heading.text degrees))]

/-- A demonstration around home. Its bounds are all finite, so there always is
one (`Command.waypoints_eq_some_generate`). -/
def generate (settings : Settings) (ids : FreshIds) (entropy : Entropy) (count : Nat) :
    List (Waypoint Float) :=
  let scatter : Scatter Float := { Scatter.standard with baseAltitude := settings.homeAltitude }
  (scatter.waypoints ids settings.home entropy.units count).getD []

end Command

end FlightPlan
