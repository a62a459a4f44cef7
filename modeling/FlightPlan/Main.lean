import FlightPlan.Program

/-!
# `FlightPlan.Main`: the program on a real machine

Everything is decided by `FlightPlan.Program.run`. Here its surroundings are
looked up: the variables of the environment, the files that the command line
names, and random bytes for identifiers and for demonstrations without a seed.
Its outcome is then printed, with the message of a fault on the error stream.
-/

set_option autoImplicit false

namespace FlightPlan.Main

/-- The variables that the program looks at. -/
def variableNames : List String :=
  Limits.Name.all.map Settings.limitVariable
    ++ ["PLANNER_HOME_LAT", "PLANNER_HOME_LON", "PLANNER_HOME_ALT_M"]

/-- The variables of the environment, as far as they are looked at. -/
def lookupEnvironment : IO Environment := do
  let found ← variableNames.filterMapM fun (name : String) => do
    let value ← IO.getEnv name
    return value.map fun text => (name, text)
  return fun name => found.lookup name

/-- The files that the command line names, as far as they can be read. -/
def lookupFiles (arguments : List String) : IO Files := do
  let paths := ((Invocation.read arguments).map Invocation.paths).toOption.getD []
  let found ← paths.filterMapM fun (path : String) => do
    try
      let text ← IO.FS.readFile path
      return some (path, text)
    catch _ => return none
  return fun path => found.lookup path

/-- A key of random bytes. -/
def randomKey : IO (List UInt32) := do
  let bytes ← IO.getRandomBytes 32
  let word (i : Nat) : UInt32 :=
    (List.range 4).foldl (fun w j => w * 256 + (bytes.data.getD (4 * i + j) 0).toUInt32) 0
  return (List.range 8).map word

/-- The identifier that two random words make, marked as a random one. -/
def idOfWords (high low : UInt64) : WaypointId :=
  let bits : Nat := high.toNat * UInt64.size + low.toNat
  let digit (i : Fin 32) : Fin 16 :=
    let d := Text.lastHex (bits / Nat.pow 16 (31 - i.val))
    if i.val = 12 then Text.lastHex 4
    else if i.val = 16 then Text.lastHex (8 + d.val % 4)
    else d
  ⟨Vector.ofFn digit⟩

/-- Identifiers from a stream of random words. -/
def idsOf (entropy : Entropy) : FreshIds :=
  fun n => idOfWords (entropy (2 * n)) (entropy (2 * n + 1))

/-- What the program finds around it. -/
def lookAround (arguments : List String) : IO Surroundings := do
  return {
    env := ← lookupEnvironment
    files := ← lookupFiles arguments
    ids := idsOf (Entropy.ofKey (← randomKey))
    entropy := Entropy.ofKey (← randomKey) }

end FlightPlan.Main

open FlightPlan in
/-- Runs the program and returns its exit code. -/
def main (arguments : List String) : IO UInt32 := do
  let around ← FlightPlan.Main.lookAround arguments
  let outcome := Program.run around arguments
  IO.print outcome.output
  match outcome.fault with
  | some fault => IO.eprintln ("Error: " ++ fault.message)
  | none => pure ()
  return outcome.exitCode.toUInt32
