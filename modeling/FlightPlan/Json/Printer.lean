import FlightPlan.Decimal.Layout
import FlightPlan.Json.Basic

/-!
# `FlightPlan.Json.Printer`: from a JSON value to text

`Json.text` writes a value on one line without blanks, or with one item or
member on each line, two blanks deeper than what holds it. Empty arrays and
objects stay on one line. Both styles are one function, told apart by a `Style`.
-/

set_option autoImplicit false

namespace FlightPlan.Json

/-- Documents write a double positionally when its first digit is at most five
places behind the point and at most sixteen digits stand in front of it. A whole
number keeps a point and a zero, so it reads back as a double. -/
def numberLayout : Decimal.Layout where
  positional place := -5 ≤ place ∧ place < 16
  wholeMark := ['.', '0']
  tie := .toEven

/-- A number as a numeral. -/
def numberText : Number → List Char
  | .natural n => Nat.toDigits 10 n
  | .negative n => '-' :: Nat.toDigits 10 n
  | .real x => Decimal.floatText numberLayout x

/-- Two hexadecimal digits of a number below `256`. -/
def hexPair (n : Nat) : List Char :=
  [Nat.digitChar (n / 16), Nat.digitChar (n % 16)]

/-- One character inside a string. Quotation marks, backslashes and control
characters are escaped, the latter with a letter where they have one. -/
def escapedChar (c : Char) : List Char :=
  if c = '"' then ['\\', '"']
  else if c = '\\' then ['\\', '\\']
  else if c = '\x08' then ['\\', 'b']
  else if c = '\t' then ['\\', 't']
  else if c = '\n' then ['\\', 'n']
  else if c = '\x0c' then ['\\', 'f']
  else if c = '\r' then ['\\', 'r']
  else if c.toNat < 0x20 then ['\\', 'u', '0', '0'] ++ hexPair c.toNat
  else [c]

/-- A string in quotation marks. -/
def stringText (s : String) : List Char :=
  '"' :: s.toList.flatMap escapedChar ++ ['"']

/-- How the parts of a document are set apart. -/
inductive Style where
  /-- One line without blanks. -/
  | compact
  /-- One item or member on each line. -/
  | pretty
deriving DecidableEq, Repr

/-- What stands between two parts at the given depth. -/
def Style.lineBreak : Style → Nat → List Char
  | .compact, _ => []
  | .pretty, depth => '\n' :: List.replicate (2 * depth) ' '

/-- What stands between a key and its value. -/
def Style.afterKey : Style → List Char
  | .compact => [':']
  | .pretty => [':', ' ']

mutual

/-- A value whose first line is indented for the given depth. -/
def textAt (style : Style) (depth : Nat) : Json → List Char
  | .null => "null".toList
  | .bool b => if b then "true".toList else "false".toList
  | .number n => numberText n
  | .string s => stringText s
  | .array [] => ['[', ']']
  | .array (item :: rest) =>
    '[' :: style.lineBreak (depth + 1) ++ textAt style (depth + 1) item
      ++ itemsText style (depth + 1) rest ++ style.lineBreak depth ++ [']']
  | .object [] => ['\x7b', '\x7d']
  | .object ((key, value) :: rest) =>
    '\x7b' :: style.lineBreak (depth + 1) ++ stringText key ++ style.afterKey
      ++ textAt style (depth + 1) value
      ++ membersText style (depth + 1) rest ++ style.lineBreak depth ++ ['\x7d']
  | .unrepresentable => "null".toList

/-- The items after the first, each behind a comma. -/
def itemsText (style : Style) (depth : Nat) : List Json → List Char
  | [] => []
  | item :: rest =>
    ',' :: style.lineBreak depth ++ textAt style depth item ++ itemsText style depth rest

/-- The members after the first, each behind a comma. -/
def membersText (style : Style) (depth : Nat) : List (String × Json) → List Char
  | [] => []
  | (key, value) :: rest =>
    ',' :: style.lineBreak depth ++ stringText key ++ style.afterKey
      ++ textAt style depth value ++ membersText style depth rest

end

/-- A value as a text of its own. -/
def text (style : Style) (j : Json) : String :=
  String.ofList (textAt style 0 j)

end FlightPlan.Json
