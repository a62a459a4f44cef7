import FlightPlan.Text.Hex
import FlightPlan.Json.Numeral

/-!
# `FlightPlan.Json.Token`: the tokens of a JSON text

`Token.scan` cuts a text into tokens in one pass over its characters. The mode
it is in says what the characters so far have begun: nothing, a run of letters,
digits and signs, or a string. A run is a literal name or a numeral as a whole,
so that `1true` is no token at all. Where a text is not made of tokens, an
`invalid` token stands, which no document contains.
-/

set_option autoImplicit false

namespace FlightPlan.Json

/-- A token of a JSON text. -/
inductive Token where
  | openArray
  | closeArray
  | openObject
  | closeObject
  | comma
  | colon
  /-- A string, without text when half of a surrogate pair stands alone. -/
  | text (content : Option String)
  /-- A literal name or a number. -/
  | leaf (value : Json)
  | invalid

namespace Token

/-! ### Strings -/

/-- The number that four hexadecimal digits spell. -/
def hexQuad? (a b c d : Char) : Option Nat := do
  let a ← Text.hexDigit? a
  let b ← Text.hexDigit? b
  let c ← Text.hexDigit? c
  let d ← Text.hexDigit? d
  some (((a.val * 16 + b) * 16 + c) * 16 + d)

/-- The character that a letter after a backslash stands for. -/
def escaped? (c : Char) : Option Nat :=
  if c = '"' ∨ c = '\\' ∨ c = '/' then some c.toNat
  else if c = 'b' then some 0x08
  else if c = 'f' then some 0x0C
  else if c = 'n' then some 0x0A
  else if c = 'r' then some 0x0D
  else if c = 't' then some 0x09
  else none

/-- The code points between quotation marks, where an escaped surrogate counts
as a point of its own. There are none when an escape is malformed. -/
def unescape : List Char → Option (List Nat)
  | [] => some []
  | '\\' :: 'u' :: a :: b :: c :: d :: rest => do
    let n ← hexQuad? a b c d
    let points ← unescape rest
    some (n :: points)
  | '\\' :: c :: rest => do
    let n ← escaped? c
    let points ← unescape rest
    some (n :: points)
  | '\\' :: [] => none
  | c :: rest => (unescape rest).map (c.toNat :: ·)

/-- The first half of a surrogate pair. -/
def isHighSurrogate (n : Nat) : Bool :=
  0xD800 ≤ n && n ≤ 0xDBFF

/-- The second half of a surrogate pair. -/
def isLowSurrogate (n : Nat) : Bool :=
  0xDC00 ≤ n && n ≤ 0xDFFF

/-- Code points as text, with surrogate pairs joined. There is none when half of
a pair stands alone. -/
def joinPairs : List Nat → Option (List Char)
  | [] => some []
  | high :: low :: rest =>
    if isHighSurrogate high && isLowSurrogate low then
      (joinPairs rest).map
        (Char.ofNat (0x10000 + (high - 0xD800) * 0x400 + (low - 0xDC00)) :: ·)
    else if isHighSurrogate high || isLowSurrogate high then none
    else (joinPairs (low :: rest)).map (Char.ofNat high :: ·)
  | [n] => if isHighSurrogate n || isLowSurrogate n then none else some [Char.ofNat n]

/-- The token of what stands between two quotation marks. -/
def ofBody (body : List Char) : Token :=
  match unescape body with
  | none => .invalid
  | some points => .text ((joinPairs points).map String.ofList)

/-! ### Names and numbers -/

/-- A number past the range of doubles follows the grammar and has no value. -/
def ofNumeral (numeral : Numeral) : Json :=
  match numeral.value with
  | some n => .number n
  | none => .unrepresentable

/-- The token of a whole run of letters, digits and signs. -/
def ofRun (run : List Char) : Token :=
  if run = "null".toList then .leaf .null
  else if run = "true".toList then .leaf (.bool true)
  else if run = "false".toList then .leaf (.bool false)
  else
    match Numeral.read run with
    | some numeral => .leaf (ofNumeral numeral)
    | none => .invalid

/-! ### Scanning -/

/-- What the characters read so far have begun. Gathered characters are in
reverse order. -/
inductive Mode where
  | between
  | run (gathered : List Char)
  | text (gathered : List Char) (escaping : Bool)

/-- The blanks that may stand between tokens. -/
def isBlank (c : Char) : Bool :=
  c == ' ' || c == '\t' || c == '\n' || c == '\r'

/-- The characters of names and numerals. -/
def isRunChar (c : Char) : Bool :=
  c.isAlphanum || c == '-' || c == '+' || c == '.'

/-- The token that a character is by itself. -/
def ofPunctuation (c : Char) : Token :=
  if c = '[' then .openArray
  else if c = ']' then .closeArray
  else if c = '\x7b' then .openObject
  else if c = '\x7d' then .closeObject
  else if c = ',' then .comma
  else if c = ':' then .colon
  else .invalid

/-- The token that a character completes between other tokens, and what it
begins. -/
def start (c : Char) : List Token × Mode :=
  if isBlank c then ([], .between)
  else if c = '"' then ([], .text [] false)
  else if isRunChar c then ([], .run [c])
  else ([ofPunctuation c], .between)

/-- The tokens that one more character completes, and what is begun after it. A
control character may not stand in a string. -/
def advance : Mode → Char → List Token × Mode
  | .between, c => start c
  | .run gathered, c =>
    if isRunChar c then ([], .run (c :: gathered))
    else
      let (tokens, mode) := start c
      (ofRun gathered.reverse :: tokens, mode)
  | .text gathered escaping, c =>
    if c = '"' ∧ ¬ escaping then ([ofBody gathered.reverse], .between)
    else if c.toNat < 0x20 then ([.invalid], .between)
    else ([], .text (c :: gathered) (c = '\\' ∧ ¬ escaping))

/-- The token that the end of the text completes. -/
def atEnd : Mode → List Token
  | .between => []
  | .run gathered => [ofRun gathered.reverse]
  | .text _ _ => [.invalid]

/-- The tokens of the rest of a text, from the mode its beginning has led to. -/
def scan (mode : Mode) : List Char → List Token
  | [] => atEnd mode
  | c :: rest =>
    let (tokens, next) := advance mode c
    tokens ++ scan next rest

end Token

end FlightPlan.Json
