import FlightPlan.PositionText
import FlightPlan.Plan
import FlightPlan.Document.Limits

/-!
# `FlightPlan.Settings`: what the program is set to

Settings are the limits, and the position and altitude of home. Each of the
eight numbers has a variable of its own in the environment, and keeps its
standard value when the variable is not set to a finite number. A rules file
replaces the limits as a whole, and leaves home alone.

Nothing is run under settings with a fault: limits that do not make sense
together, or a home that is no valid position.
-/

set_option autoImplicit false

namespace FlightPlan

/-- The values of variables. -/
abbrev Environment := String → Option String

/-- What the program is set to. -/
structure Settings where
  limits : Limits Float
  home : Position Float
  homeAltitude : Float

/-- Why settings are not used. -/
inductive SettingsFault where
  | limits (faults : List (Limits.Fault Float))
  | home (position : Position Float)

/-- The message of settings that are not used. -/
def SettingsFault.message : SettingsFault → String
  | .limits faults =>
    "invalid feasibility rules: " ++ "; ".intercalate (faults.map Limits.Fault.message)
  | .home position =>
    "invalid home position: lat=" ++ Message.number position.lat
      ++ ", lon=" ++ Message.number position.lon

namespace Settings

/-- The position of home, unless it is set. -/
def standardHome : Position Float := ⟨35.6892, 51.3890⟩

/-- The altitude of home, unless it is set. -/
def standardHomeAltitude : Float := 50.0

/-- The finite number that a variable is set to, or its standard value. -/
def readNumber (env : Environment) (variableName : String) (standard : Float) : Float :=
  let value := (env variableName).bind fun text => Position.readCoordinate text.toList
  (value.filter Float.isFinite).getD standard

/-- The variable of a threshold. -/
def limitVariable : Limits.Name → String
  | .meaningful => "PLANNER_MIN_MEANINGFUL_MPS"
  | .feasible => "PLANNER_MAX_FEASIBLE_MPS"
  | .marginal => "PLANNER_MAX_MARGINAL_MPS"
  | .ceiling => "PLANNER_ABSOLUTE_MAX_MPS"
  | .clearance => "PLANNER_MIN_CLEARANCE_M"

/-- The settings of an environment. -/
def ofEnvironment (env : Environment) : Settings :=
  let limit (name : Limits.Name) : Float :=
    readNumber env (limitVariable name) (Limits.standard.get name)
  { limits := {
      meaningful := limit .meaningful
      feasible := limit .feasible
      marginal := limit .marginal
      ceiling := limit .ceiling
      clearance := limit .clearance }
    home := ⟨readNumber env "PLANNER_HOME_LAT" standardHome.lat,
      readNumber env "PLANNER_HOME_LON" standardHome.lon⟩
    homeAltitude := readNumber env "PLANNER_HOME_ALT_M" standardHomeAltitude }

/-- The first fault of settings. -/
def fault? (settings : Settings) : Option SettingsFault :=
  let faults := settings.limits.faults
  if !faults.isEmpty then some (.limits faults)
  else if !settings.home.isValid then some (.home settings.home)
  else none

end Settings

end FlightPlan
