import FlightPlan.Json.Token

/-!
# `FlightPlan.Json.Reader`: from text to a JSON value

The reader walks over the tokens of a text and keeps the arrays and objects that
are still open on a stack. Every token is one step, so reading needs no bound on
nesting and ends with the text. `Json.readPrefix` stops where the first value is
complete and gives the tokens after it; `Json.read` wants no token after it.
-/

set_option autoImplicit false

namespace FlightPlan.Json

/-- An array or object that is still open, with its contents so far in reverse
order. -/
inductive Frame where
  | array (items : List Json)
  /-- No member is begun. -/
  | object (members : List (Option String × Json))
  /-- The value of the member with this key is to come. -/
  | member (members : List (Option String × Json)) (key : Option String)

/-- What may come next. -/
inductive Expected where
  | value
  | firstItem
  | key
  | firstKey
  | colon
  /-- A comma, or the end of the innermost array or object. -/
  | separator
deriving DecidableEq

/-- A reader in the middle of a value. -/
structure Reading where
  expected : Expected
  stack : List Frame

/-- The outcome of one step. -/
inductive Step where
  | more (reading : Reading)
  | done (value : Json)

/-- An object whose members have all been read. A key without text leaves the
object without value. -/
def ofMembers (members : List (Option String × Json)) : Json :=
  match members.mapM fun (key, value) => key.map fun text => (text, value) with
  | some named => .object named
  | none => .unrepresentable

/-- A string token where a value is expected. -/
def ofContent : Option String → Json
  | some s => .string s
  | none => .unrepresentable

/-- A complete value goes into the innermost open array or object, or is the
whole result. -/
def complete (value : Json) : List Frame → Option Step
  | [] => some (.done value)
  | .array items :: stack => some (.more ⟨.separator, .array (value :: items) :: stack⟩)
  | .member members key :: stack =>
    some (.more ⟨.separator, .object ((key, value) :: members) :: stack⟩)
  | .object _ :: _ => none

/-- A token where a value must begin. -/
def beginValue (stack : List Frame) : Token → Option Step
  | .leaf value => complete value stack
  | .text content => complete (ofContent content) stack
  | .openArray => some (.more ⟨.firstItem, .array [] :: stack⟩)
  | .openObject => some (.more ⟨.firstKey, .object [] :: stack⟩)
  | _ => none

/-- A token where a key must begin. -/
def beginMember (stack : List Frame) (token : Token) : Option Step :=
  match token, stack with
  | .text key, .object members :: rest => some (.more ⟨.colon, .member members key :: rest⟩)
  | _, _ => none

/-- A token that ends the innermost array or object. -/
def close (stack : List Frame) (token : Token) : Option Step :=
  match token, stack with
  | .closeArray, .array items :: rest => complete (.array items.reverse) rest
  | .closeObject, .object members :: rest => complete (ofMembers members.reverse) rest
  | _, _ => none

/-- What follows a comma. -/
def afterComma : List Frame → Option Step
  | .array items :: rest => some (.more ⟨.value, .array items :: rest⟩)
  | .object members :: rest => some (.more ⟨.key, .object members :: rest⟩)
  | _ => none

/-- One token. -/
def Reading.step (r : Reading) (token : Token) : Option Step :=
  match r.expected with
  | .value => beginValue r.stack token
  | .firstItem =>
    match token with
    | .closeArray => close r.stack token
    | _ => beginValue r.stack token
  | .key => beginMember r.stack token
  | .firstKey =>
    match token with
    | .closeObject => close r.stack token
    | _ => beginMember r.stack token
  | .colon =>
    match token with
    | .colon => some (.more ⟨.value, r.stack⟩)
    | _ => none
  | .separator =>
    match token with
    | .comma => afterComma r.stack
    | _ => close r.stack token

/-- The value that the tokens complete, and the tokens after it. -/
def Reading.run (r : Reading) : List Token → Option (Json × List Token)
  | [] => none
  | token :: rest =>
    match r.step token with
    | none => none
    | some (.done value) => some (value, rest)
    | some (.more next) => next.run rest

/-- The first value of a text, and the tokens after it. -/
def readPrefix (text : String) : Option (Json × List Token) :=
  Reading.run ⟨.value, []⟩ (Token.scan .between text.toList)

/-- The value that takes up the whole text. -/
def read (text : String) : Option Json :=
  match readPrefix text with
  | some (value, []) => some value
  | _ => none

/-- The value of a text, every piece of which is in order. -/
def readStrict (text : String) : Option Json :=
  (read text).filter isStrict

end FlightPlan.Json
