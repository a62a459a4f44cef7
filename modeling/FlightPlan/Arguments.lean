import FlightPlan.PositionText
import FlightPlan.WaypointId

/-!
# `FlightPlan.Arguments`: the command line

A command line names one task and what the task needs. Options are written
`--name value` or `--name=value`, where a value set apart may not begin with a
hyphen unless it is nothing else; `--` ends them. No option is given twice. The
options that any task takes, `--rules` and `--json-logs`, may stand in front of
the name of the task or behind it, and one behind it has the last word.

Arguments are taken up one after the other, and the first fault or question
decides what comes of the command line. An argument whose value is attached is
looked into at once. One that stands apart is `Pending` until the next one is
taken up, or until there are no more. Whether anything is missing is asked last.

* `gather` sorts the arguments into options, switches and others.
* `Invocation.read` is the whole command line, or an `Interruption`: a usage
  error, or a question about the program.
-/

set_option autoImplicit false

namespace FlightPlan

/-- A command line that names no task to carry out. -/
inductive Interruption where
  /-- The command line is not as it should be. -/
  | usage
  /-- It asks how the program is used. -/
  | help
  /-- It asks for the version. -/
  | version
deriving DecidableEq, Repr

/-- What the program can be asked to do. -/
inductive Task where
  | recalc (path : String)
  | drag (path : String) (id : WaypointId) (index : Nat)
  | validate (path : String) (terrainPath : Option String)
  | summary (path : String)
  | heading (origin goal : Position Float)
  | generate (count : Nat) (seed : Option UInt64)

/-- A command line. -/
structure Invocation where
  rulesPath : Option String
  jsonLogs : Bool
  task : Task

namespace Arguments

/-! ### Values -/

/-- The value, or a usage error. -/
def orUsage {α : Type} : Option α → Except Interruption α
  | some a => .ok a
  | none => .error .usage

/-- A natural number below `2 ^ 64` in digits, perhaps with a plus sign. -/
def readCount (text : String) : Option Nat :=
  let digits :=
    match text.toList with
    | '+' :: rest => rest
    | cs => cs
  if digits.isEmpty || !digits.all Char.isDigit then none
  else
    let n := Decimal.valueOfDigits digits
    if n < UInt64.size then some n else none

/-- A path, which is never empty. -/
def readPath (text : String) : Option String :=
  if text.isEmpty then none else some text

/-- A position. -/
def readPosition (text : String) : Option (Position Float) :=
  (Position.readTyped text.toList).toOption

/-- The kinds of values that options have. -/
inductive ValueKind where
  | path
  | id
  | count
  | position
deriving DecidableEq, Repr

/-- The text is a value of the kind. -/
def ValueKind.accepts : ValueKind → String → Bool
  | .path, text => (readPath text).isSome
  | .id, text => (WaypointId.readTyped text).isSome
  | .count, text => (readCount text).isSome
  | .position, text => (readPosition text).isSome

/-! ### Sorting arguments -/

/-- The arguments that a place on the command line may hold. -/
structure Form where
  /-- The options, which have a value. -/
  options : List (String × ValueKind)
  /-- The switches, which have none. -/
  switches : List String
  /-- How many other arguments there are. They are paths. -/
  others : Nat
  /-- The place is in front of the name of the task: the first argument that is
  neither option nor switch ends it, and the version can be asked for. -/
  isFront : Bool

/-- An argument that has been taken up and not been looked into. -/
inductive Pending where
  | nothing
  /-- An option whose value stands apart, with the value once it has come. -/
  | option (name : String) (kind : ValueKind) (value : Option String)
  /-- An argument that is neither option nor switch. -/
  | other (argument : String)
deriving DecidableEq, Repr

/-- The arguments that were found. -/
structure Gathered where
  options : List (String × String)
  switches : List String
  others : List String
  pending : Pending
deriving DecidableEq, Repr

namespace Gathered

/-- No arguments. -/
def empty : Gathered := ⟨[], [], [], .nothing⟩

/-- The arguments with one more option, which was not there before and has a
value of its kind. -/
def addOption (g : Gathered) (name : String) (kind : ValueKind) (value : String) :
    Except Interruption Gathered :=
  if (g.options.lookup name).isSome ∨ ¬ kind.accepts value then .error .usage
  else .ok { g with options := (name, value) :: g.options }

/-- The arguments with one more switch, which was not there before. -/
def addSwitch (g : Gathered) (name : String) : Except Interruption Gathered :=
  if g.switches.contains name then .error .usage
  else .ok { g with switches := name :: g.switches }

/-- The arguments with one more that is neither option nor switch, but a
path. -/
def addOther (g : Gathered) (argument : String) : Except Interruption Gathered :=
  if ValueKind.path.accepts argument then .ok { g with others := g.others ++ [argument] }
  else .error .usage

/-- The arguments with the pending one among them. -/
def settle (g : Gathered) : Except Interruption Gathered :=
  let settled : Gathered := { g with pending := .nothing }
  match g.pending with
  | .nothing => .ok settled
  | .option _ _ none => .error .usage
  | .option name kind (some value) => settled.addOption name kind value
  | .other argument => settled.addOther argument

end Gathered

/-- An argument by its look. -/
inductive Look where
  /-- `--` -/
  | terminator
  /-- `--name` or `--name=value` -/
  | long (name : String) (value : Option String)
  /-- A hyphen and letters, of which this is the first. -/
  | short (letter : Char)
  /-- Anything else, a single hyphen among it. -/
  | other

/-- How an argument looks. -/
def look (argument : String) : Look :=
  match argument.toList with
  | ['-', '-'] => .terminator
  | '-' :: '-' :: rest =>
    let name := String.ofList (rest.takeWhile (· != '='))
    match rest.dropWhile (· != '=') with
    | [] => .long name none
    | _ :: value => .long name (some (String.ofList value))
  | '-' :: letter :: _ => .short letter
  | _ => .other

/-- What an argument that is neither option nor switch here asks, if it asks
anything. -/
def question (form : Form) (name : String) : Interruption :=
  if name = "help" then .help
  else if name = "version" ∧ form.isFront then .version
  else .usage

/-- What a single-letter argument asks, if it asks anything. -/
def shortQuestion (form : Form) (letter : Char) : Interruption :=
  if letter = 'h' then .help
  else if letter = 'V' ∧ form.isFront then .version
  else .usage

/-- The arguments sorted, up to the name of the task if they stand in front of
it, and the arguments from there on. -/
def gather (form : Form) (g : Gathered) :
    List String → Except Interruption (Gathered × List String)
  | [] => .ok (g, [])
  | argument :: rest =>
    match look argument with
    | .terminator => do
      let g ← g.settle
      if form.others < g.others.length + rest.length then .error .usage
      else .ok (← rest.foldlM Gathered.addOther g, [])
    | .short letter => do
      let _ ← g.settle
      .error (shortQuestion form letter)
    | .long name (some value) =>
      match form.options.lookup name with
      | some kind => do
        let g ← g.settle
        let g ← g.addOption name kind value
        gather form g rest
      | none => .error .usage
    | .long name none =>
      if form.switches.contains name then do
        let g ← g.settle
        let g ← g.addSwitch name
        gather form g rest
      else
        match form.options.lookup name with
        | some kind => do
          let g ← g.settle
          gather form { g with pending := .option name kind none } rest
        | none => do
          let _ ← g.settle
          .error (question form name)
    | .other =>
      match g.pending with
      | .option name kind none =>
        gather form { g with pending := .option name kind (some argument) } rest
      | _ =>
        if form.isFront then .ok (g, argument :: rest)
        else do
          let g ← g.settle
          if g.others.length < form.others then
            gather form { g with pending := .other argument } rest
          else .error .usage

/-! ### Values of options -/

namespace Gathered

variable {α : Type}

/-- The value of an option that may be left out. -/
def optional (g : Gathered) (name : String) (read : String → Option α) :
    Except Interruption (Option α) :=
  match g.options.lookup name with
  | some text => (orUsage (read text)).map some
  | none => .ok Option.none

/-- The value of an option that must be given. -/
def required (g : Gathered) (name : String) (read : String → Option α) :
    Except Interruption α := do
  orUsage (← g.optional name read)

/-- The one argument that is neither option nor switch. -/
def file (g : Gathered) : Except Interruption String :=
  orUsage g.others.head?

end Gathered

/-! ### Tasks -/

/-- The options that may stand anywhere. -/
def globalOptions : List (String × ValueKind) := [("rules", .path)]

/-- The switches that may stand anywhere. -/
def globalSwitches : List String := ["json-logs"]

/-- The arguments in front of the name of the task. -/
def leading : Form := ⟨globalOptions, globalSwitches, 0, true⟩

/-- The arguments behind the name of a task, with some options of its own. -/
def trailing (options : List (String × ValueKind)) (others : Nat) : Form :=
  ⟨options ++ globalOptions, globalSwitches, others, false⟩

/-- The arguments that each task takes. -/
def formOf : List (String × Form) :=
  [("recalc", trailing [] 1), ("drag", trailing [("id", .id), ("to", .count)] 1),
    ("validate", trailing [("terrain", .path)] 1), ("summary", trailing [] 1),
    ("heading", trailing [("from", .position), ("to", .position)] 0),
    ("generate", trailing [("count", .count), ("seed", .count)] 0)]

/-- The number of waypoints of a demonstration, unless it is given. -/
def standardCount : Nat := 8

/-- The task of a name with its arguments. -/
def taskOf (name : String) (g : Gathered) : Except Interruption Task := do
  match name with
  | "recalc" => .ok (.recalc (← g.file))
  | "drag" =>
    .ok (.drag (← g.file) (← g.required "id" WaypointId.readTyped) (← g.required "to" readCount))
  | "validate" => .ok (.validate (← g.file) (← g.optional "terrain" readPath))
  | "summary" => .ok (.summary (← g.file))
  | "heading" => .ok (.heading (← g.required "from" readPosition) (← g.required "to" readPosition))
  | "generate" =>
    let count ← g.optional "count" readCount
    let seed ← g.optional "seed" readCount
    .ok (.generate (count.getD standardCount) (seed.map Nat.toUInt64))
  | _ => .error .usage

/-- What comes of asking for help about what the names name: at most one thing,
a task or help itself. -/
def helpAbout : List String → Interruption
  | [] => .help
  | [name] => if name = "help" ∨ (formOf.lookup name).isSome then .help else .usage
  | _ => .usage

end Arguments

open Arguments in
/-- The command line with these arguments. What is pending in front of the name
of the task is looked into after everything behind it. -/
def Invocation.read (arguments : List String) : Except Interruption Invocation := do
  let (front, rest) ← gather leading .empty arguments
  match rest with
  | [] => .error .usage
  | name :: rest =>
    if name = "help" then .error (helpAbout rest)
    else
      let form ← orUsage (formOf.lookup name)
      let (behind, _) ← gather form .empty rest
      let behind ← behind.settle
      let task ← taskOf name behind
      let front ← front.settle
      let outer ← front.optional "rules" readPath
      let inner ← behind.optional "rules" readPath
      .ok {
        rulesPath := inner <|> outer
        jsonLogs := !front.switches.isEmpty || !behind.switches.isEmpty
        task }

/-- The files that a command line needs. -/
def Invocation.paths (invocation : Invocation) : List String :=
  invocation.rulesPath.toList ++
    match invocation.task with
    | .recalc path => [path]
    | .drag path _ _ => [path]
    | .validate path terrainPath => path :: terrainPath.toList
    | .summary path => [path]
    | .heading _ _ => []
    | .generate _ _ => []

end FlightPlan
