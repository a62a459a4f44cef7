/-!
# `FlightPlan.Json.Basic`: JSON values

The values that files and command output are made of. Members of an object keep
their order and may repeat a key, because what a repeated key means is for the
reader of a structure to decide (`FlightPlan.Json.Record`).

A text can follow the grammar and still say something that has no value here: a
number past the range of doubles, or half of a surrogate pair. Such a piece is
kept as `unrepresentable`, so that a document may still be used when the piece
stands where nothing looks at it. `Json.isStrict` says that a document is free
of such pieces and not nested too deeply.
-/

set_option autoImplicit false

namespace FlightPlan

/-- A number in a document. Whole numbers that fit 64 bits stay exact. -/
inductive Json.Number where
  /-- A natural number below `2 ^ 64`. -/
  | natural (n : Nat)
  /-- The number `-n`, for `n` from `1` to `2 ^ 63`. -/
  | negative (n : Nat)
  /-- Any other number, as a double. -/
  | real (x : Float)

/-- A JSON value. -/
inductive Json where
  | null
  | bool (b : Bool)
  | number (n : Json.Number)
  | string (s : String)
  | array (items : List Json)
  | object (members : List (String × Json))
  /-- Follows the grammar and has no value. -/
  | unrepresentable

namespace Json

/-- The double nearest to a number. -/
def Number.toFloat : Number → Float
  | .natural n => Float.ofNat n
  | .negative n => -Float.ofNat n
  | .real x => x

/-- The value of a number, whole or not. -/
def float? : Json → Option Float
  | .number n => some n.toFloat
  | _ => none

/-- The value of a natural number written without point and exponent. -/
def nat? : Json → Option Nat
  | .number (.natural n) => some n
  | _ => none

/-- The text of a string. -/
def string? : Json → Option String
  | .string s => some s
  | _ => none

/-- A name that says which of several things is meant: a string, or an object
with the name as its only key and `null` as the value. -/
def name? : Json → Option String
  | .string s => some s
  | .object [(key, .null)] => some key
  | _ => none

/-- The truth value of a boolean. -/
def bool? : Json → Option Bool
  | .bool b => some b
  | _ => none

/-- The values of a list, when `decode` accepts each of them. -/
def list? {α : Type} (decode : Json → Option α) : Json → Option (List α)
  | .array items => items.mapM decode
  | _ => none

/-- A double as a value. JSON has no infinities, and what is not finite becomes
`null`. -/
def ofFloat (x : Float) : Json :=
  if x.isFinite then .number (.real x) else .null

/-- A natural number as a value. -/
def ofNat (n : Nat) : Json :=
  .number (.natural n)

/-! ### Strict documents -/

mutual

/-- How many arrays and objects lie inside one another. -/
def depth : Json → Nat
  | .array items => itemsDepth items + 1
  | .object members => membersDepth members + 1
  | _ => 0

/-- The depth of the deepest item. -/
def itemsDepth : List Json → Nat
  | [] => 0
  | item :: rest => max item.depth (itemsDepth rest)

/-- The depth of the deepest member. -/
def membersDepth : List (String × Json) → Nat
  | [] => 0
  | (_, value) :: rest => max value.depth (membersDepth rest)

end

mutual

/-- Every piece has a value. -/
def isRepresentable : Json → Bool
  | .array items => itemsRepresentable items
  | .object members => membersRepresentable members
  | .unrepresentable => false
  | _ => true

/-- Every piece of every item has a value. -/
def itemsRepresentable : List Json → Bool
  | [] => true
  | item :: rest => item.isRepresentable && itemsRepresentable rest

/-- Every piece of every member has a value. -/
def membersRepresentable : List (String × Json) → Bool
  | [] => true
  | (_, value) :: rest => value.isRepresentable && membersRepresentable rest

end

/-- The nesting that a strict document may have. -/
def maxDepth : Nat := 127

/-- The document can be taken up as a whole. -/
def isStrict (j : Json) : Bool :=
  j.isRepresentable && j.depth ≤ maxDepth

end Json

end FlightPlan
