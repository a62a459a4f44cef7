import FlightPlan.Decimal.Basic

/-!
# `FlightPlan.Decimal.Reader`: numbers as people type them

A typed number is an optional sign and then either a name (`inf`, `infinity` or
`nan`, in letters of any case) or decimal digits. The digits may have a point,
with digits on at least one side of it, and an exponent. Nothing may stand
before or after. The result is the nearest double, so a great exponent gives an
infinity and a small one zero.
-/

set_option autoImplicit false

namespace FlightPlan.Decimal

/-- The natural number that decimal digits spell, most significant first. -/
def valueOfDigits (digits : List Char) : Nat :=
  digits.foldl (fun value c => 10 * value + (c.toNat - '0'.toNat)) 0

/-- A sign in front of a text, and the text after it. -/
def takeSign : List Char → Bool × List Char
  | '+' :: rest => (false, rest)
  | '-' :: rest => (true, rest)
  | rest => (false, rest)

/-- A whole number with an optional sign, taking up the whole text. -/
def readExponent (cs : List Char) : Option Int :=
  let (negative, digits) := takeSign cs
  if digits.isEmpty || !digits.all Char.isDigit then none
  else
    let magnitude : Int := valueOfDigits digits
    some (if negative then -magnitude else magnitude)

/-- The exponent part behind the digits: nothing, or a letter and a number. -/
def readExponentPart : List Char → Option Int
  | [] => some 0
  | c :: rest => if c = 'e' ∨ c = 'E' then readExponent rest else none

/-- Digits with an optional point and exponent, taking up the whole text. -/
def readUnsigned (negative : Bool) (cs : List Char) : Option Decimal := do
  let whole := cs.takeWhile Char.isDigit
  let (fraction, rest) :=
    match cs.dropWhile Char.isDigit with
    | '.' :: rest => (rest.takeWhile Char.isDigit, rest.dropWhile Char.isDigit)
    | rest => ([], rest)
  if whole.isEmpty && fraction.isEmpty then none
  else
    let exponent ← readExponentPart rest
    some ⟨negative, valueOfDigits (whole ++ fraction), exponent - fraction.length⟩

/-- The double a typed number stands for. -/
def readFloat (cs : List Char) : Option Float :=
  let (negative, body) := takeSign cs
  let name := body.map Char.toLower
  if name = "nan".toList then some (0.0 / 0.0)
  else if name = "inf".toList ∨ name = "infinity".toList then
    some (if negative then -(1.0 / 0.0) else 1.0 / 0.0)
  else (readUnsigned negative body).map nearest

end FlightPlan.Decimal
