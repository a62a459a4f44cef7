import FlightPlan.Decimal.Reader
import FlightPlan.Json.Basic

/-!
# `FlightPlan.Json.Numeral`: numbers in documents

`Numeral.read` takes a numeral apart by the grammar of RFC 8259, and
`Numeral.value` gives the number it stands for.

A document number is not rounded from its full decimal value, as typed numbers
are. Its digits are gathered into a 64-bit significand for as long as they fit.
The whole digits that no longer fit raise the exponent, the fraction digits from
the first misfit on are dropped, and the double nearest to the significand is
then multiplied or divided by a power of ten, which rounds a second time. A
result past the range of doubles is refused. The double written for a number is
therefore not always the double read back from it, although it nearly always is.
-/

set_option autoImplicit false

namespace FlightPlan.Json

/-- The parts of a numeral. -/
structure Numeral where
  /-- A minus sign in front. -/
  negative : Bool
  /-- The digits in front of the point. -/
  whole : List Char
  /-- The digits behind the point. -/
  fraction : List Char
  /-- The number behind the exponent letter, if there is one. -/
  exponent : Option Int

namespace Numeral

/-! ### Grammar -/

/-- One digit, or several of which the first is not zero. -/
def isWholePart : List Char → Bool
  | [] => false
  | [_] => true
  | c :: _ => c != '0'

/-- The parts of a numeral that takes up the whole text. -/
def read (cs : List Char) : Option Numeral := do
  let (negative, body) : Bool × List Char :=
    match cs with
    | '-' :: rest => (true, rest)
    | _ => (false, cs)
  let whole := body.takeWhile Char.isDigit
  if !isWholePart whole then none
  else
    let behind := body.dropWhile Char.isDigit
    let (fraction, rest) ← readFraction behind
    match rest with
    | [] => some ⟨negative, whole, fraction, none⟩
    | rest => do
      let exponent ← Decimal.readExponentPart rest
      some ⟨negative, whole, fraction, some exponent⟩
where
  /-- The fraction digits, at least one after a point, and what follows. -/
  readFraction : List Char → Option (List Char × List Char)
    | '.' :: rest =>
      let digits := rest.takeWhile Char.isDigit
      if digits.isEmpty then none else some (digits, rest.dropWhile Char.isDigit)
    | rest => some ([], rest)

/-! ### Value -/

/-- The first number that does not fit 64 bits. -/
def wordBound : Nat := UInt64.size

/-- The significand with one more digit, if that fits 64 bits. -/
def pushDigit (significand : Nat) (c : Char) : Option Nat :=
  let grown := 10 * significand + (c.toNat - '0'.toNat)
  if grown < wordBound then some grown else none

/-- The whole digits gathered into a significand, and how many are left over
once one does not fit. -/
def gatherWhole (significand : Nat) : List Char → Nat × Nat
  | [] => (significand, 0)
  | c :: rest =>
    match pushDigit significand c with
    | some grown => gatherWhole grown rest
    | none => (significand, rest.length + 1)

/-- The fraction digits gathered behind a significand, up to the first that does
not fit, and how many were taken. -/
def gatherFraction (significand taken : Nat) : List Char → Nat × Nat
  | [] => (significand, taken)
  | c :: rest =>
    match pushDigit significand c with
    | some grown => gatherFraction grown (taken + 1) rest
    | none => (significand, taken)

/-- The power of ten as a double, for exponents up to `308`. -/
def tenPow (exponent : Nat) : Float :=
  Float.ofScientific 1 false exponent

/-- A significand scaled by a power of ten, each step rounded to a double.
Powers below the table's range are reached in two divisions, and what those
cannot reach is zero. There is no result past the range of doubles. -/
def scale (significand : Nat) (exponent : Int) : Option Float :=
  let x := Float.ofNat significand
  if 308 < exponent then if significand = 0 then some x else none
  else if 0 ≤ exponent then
    let y := x * tenPow exponent.toNat
    if y.isFinite then some y else none
  else if -308 ≤ exponent then some (x / tenPow (-exponent).toNat)
  else if -616 ≤ exponent then some (x / tenPow 308 / tenPow (-(exponent + 308)).toNat)
  else some 0.0

/-- The number a numeral stands for, or `none` past the range of doubles. A
numeral without point and exponent is a whole number if that fits 64 bits with
its sign, except that minus zero is a double. -/
def value (n : Numeral) : Option Number :=
  let (significand, leftOver) := gatherWhole 0 n.whole
  if n.fraction.isEmpty && n.exponent.isNone && leftOver == 0 then
    if !n.negative then some (.natural significand)
    else if significand = 0 ∨ Nat.pow 2 63 < significand then
      some (.real (-Float.ofNat significand))
    else some (.negative significand)
  else
    let (significand, taken) := gatherFraction significand 0 n.fraction
    let exponent := (leftOver : Int) - taken + n.exponent.getD 0
    (scale significand exponent).map fun x => .real (if n.negative then -x else x)

end Numeral

end FlightPlan.Json
