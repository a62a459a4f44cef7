import FlightPlan.Decimal.Shortest

/-!
# `FlightPlan.Decimal.Layout`: decimals as text

A decimal is written positionally, as in `0.0012` or `1200`, or with an
exponent, as in `1.2e-3` and `1.2e+16`. Which of the two, and whether a whole
number keeps a mark of its own, differs from one kind of output to another: a
`Layout` records those decisions, and each kind of output has its record beside
its printer. `fixedTenths` writes the exact value of a double to one decimal.
-/

set_option autoImplicit false

namespace FlightPlan.Decimal

/-- The decisions of one way to write doubles. -/
structure Layout where
  /-- Whether a decimal whose first digit has this place is written
  positionally. -/
  positional : Int → Bool
  /-- What follows the digits of a whole number in positional writing. -/
  wholeMark : List Char
  /-- Which of two shortest decimals is taken when both are equally near. -/
  tie : Tie

/-- Digits with the point where the exponent puts it: after added zeros, among
the digits, or in front of them behind a zero. -/
def positionalText (wholeMark digits : List Char) (exponent : Int) : List Char :=
  if 0 ≤ exponent then
    digits ++ List.replicate exponent.toNat '0' ++ wholeMark
  else
    let whole := (digits.length : Int) + exponent
    if 0 < whole then
      digits.take whole.toNat ++ '.' :: digits.drop whole.toNat
    else
      '0' :: '.' :: (List.replicate (-whole).toNat '0' ++ digits)

/-- One digit in front of the point, the others behind it, and the place of the
first digit as a signed exponent. -/
def scientificText (digits : List Char) (firstPlace : Int) : List Char :=
  let fraction := digits.drop 1
  digits.take 1
    ++ (if fraction.isEmpty then [] else '.' :: fraction)
    ++ ['e', if firstPlace < 0 then '-' else '+']
    ++ Nat.toDigits 10 firstPlace.natAbs

/-- A decimal in the given layout. Zero is always written positionally. -/
def text (layout : Layout) (d : Decimal) : List Char :=
  let digits := Nat.toDigits 10 d.coefficient
  let body :=
    if d.coefficient = 0 ∨ layout.positional d.firstPlace then
      positionalText layout.wholeMark digits d.exponent
    else scientificText digits d.firstPlace
  if d.negative then '-' :: body else body

/-- A finite double in the given layout, with the fewest digits that read
back. -/
def floatText (layout : Layout) (x : Float) : List Char :=
  text layout (shortest layout.tie x)

/-- The quotient rounded to the nearest natural number, a half to the even
one. -/
def divHalfEven (numerator denominator : Nat) : Nat :=
  let quotient := numerator / denominator
  let rest := 2 * (numerator % denominator)
  if rest < denominator ∨ (rest = denominator ∧ quotient % 2 = 0) then quotient
  else quotient + 1

/-- A finite double with exactly one decimal. The exact value is rounded, and a
result of zero keeps the sign of the double. -/
def fixedTenths (x : Float) : List Char :=
  let p := Binary64.parts x
  let tenths := divHalfEven (10 * p.significand * Nat.pow 2 p.exponent.toNat)
    (Nat.pow 2 (-p.exponent).toNat)
  let body := Nat.toDigits 10 (tenths / 10) ++ '.' :: Nat.toDigits 10 (tenths % 10)
  if Binary64.isNegative x then '-' :: body else body

end FlightPlan.Decimal
