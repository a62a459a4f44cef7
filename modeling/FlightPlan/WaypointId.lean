import FlightPlan.Text.Blank
import FlightPlan.Text.Hex

/-!
# `FlightPlan.WaypointId`: identifiers of waypoints

A waypoint is known by a 128-bit identifier, which is given once and never
again. It is written as thirty-two lowercase hexadecimal digits in five groups
joined by hyphens. Reading takes digits of either case, and four forms: the
written one, the digits without hyphens, the written form in braces, and the
written form as a `urn:uuid:` name.
-/

set_option autoImplicit false

namespace FlightPlan

/-- Thirty-two hexadecimal digits. -/
structure WaypointId where
  digits : Vector (Fin 16) 32
deriving DecidableEq

namespace WaypointId

/-- The sizes of the groups of digits. -/
def groupSizes : List Nat := [8, 4, 4, 4, 12]

/-- Characters in groups of the given sizes, joined by hyphens. -/
def joinGroups : List Nat → List Char → List Char
  | [], cs => cs
  | [_], cs => cs
  | size :: sizes, cs => cs.take size ++ '-' :: joinGroups sizes (cs.drop size)

/-- The characters of groups of the given sizes, without the hyphens that join
them. -/
def splitGroups : List Nat → List Char → Option (List Char)
  | [], cs => if cs.isEmpty then some [] else none
  | [size], cs => if cs.length = size then some cs else none
  | size :: sizes, cs =>
    match cs.drop size with
    | '-' :: rest => (splitGroups sizes rest).map (cs.take size ++ ·)
    | _ => none

/-- The written form. -/
def toText (id : WaypointId) : String :=
  String.ofList (joinGroups groupSizes (id.digits.toList.map Text.hexChar))

/-- The identifier with exactly these digits. -/
def ofDigitChars (cs : List Char) : Option WaypointId := do
  let digits ← cs.mapM Text.hexDigit?
  if h : digits.toArray.size = 32 then some ⟨⟨digits.toArray, h⟩⟩ else none

/-- The text between braces, if the text is braced. -/
def unbrace : List Char → Option (List Char)
  | '\x7b' :: rest => if rest.getLast? = some '\x7d' then some rest.dropLast else none
  | _ => none

/-- The text behind the name of the scheme, in any case, if it stands there. -/
def unscheme (cs : List Char) : Option (List Char) :=
  let scheme := "urn:uuid:".toList
  if (cs.take scheme.length).map Char.toLower = scheme then some (cs.drop scheme.length)
  else none

/-- The identifier that a text is one of the four forms of. -/
def read (cs : List Char) : Option WaypointId :=
  if cs.length = 32 then ofDigitChars cs
  else
    let grouped := (unbrace cs <|> unscheme cs).getD cs
    (splitGroups groupSizes grouped).bind ofDigitChars

/-- The identifier that is typed, with blanks around it. -/
def readTyped (text : String) : Option WaypointId :=
  read (Text.trim text.toList)

end WaypointId

/-- Identifiers that have not been given yet, in the order they are to be
given. -/
abbrev FreshIds := Nat → WaypointId

end FlightPlan
