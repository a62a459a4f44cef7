import FlightPlan.Binary64.Parts
import FlightPlan.Decimal.Basic

/-!
# `FlightPlan.Decimal.Shortest`: the fewest digits that read back

Between a double and each of its neighbours lies a midpoint, and every decimal
between the two midpoints rounds to that double. Among those decimals `shortest`
takes one with the fewest digits, and of these the one nearest to the double.

The search is plain. For one digit, for two, and so on, the two points of that
decimal grid around the double are tested against the midpoints in exact natural
numbers. If any point of a grid lies between the midpoints, one of these two
does, so the first grid with a hit has the fewest digits. Seventeen digits are
always enough.
-/

set_option autoImplicit false

namespace FlightPlan.Decimal

open FlightPlan.Binary64 (Parts)

/-- Where the decimal goes when a double lies halfway between two candidates. -/
inductive Tie where
  /-- To the candidate with the even last digit. -/
  | toEven
  /-- To the greater candidate. -/
  | up
deriving DecidableEq, Repr

/-- The decimals that round to one double: its magnitude and the two midpoints,
all three over one denominator. -/
structure Basin where
  /-- The midpoint with the next lower double. -/
  low : Nat
  /-- The double itself. -/
  value : Nat
  /-- The midpoint with the next higher double. -/
  high : Nat
  /-- What the three numbers are divided by. -/
  denominator : Nat
  /-- The midpoints themselves round to the double. -/
  closed : Bool
deriving DecidableEq, Repr

/-- The basin of a positive double, counted in quarters of its last binary
place. Doubles are half as far apart below a power of two, so there the lower
midpoint is only a quarter away. A midpoint rounds to the even significand. -/
def Basin.ofParts (p : Parts) : Basin :=
  let quarters := 4 * p.significand
  let below := if p.significand = Nat.pow 2 52 ∧ -1074 < p.exponent then 1 else 2
  let up := Nat.pow 2 (p.exponent - 2).toNat
  ⟨(quarters - below) * up, quarters * up, (quarters + 2) * up,
    Nat.pow 2 (2 - p.exponent).toNat, p.significand % 2 == 0⟩

/-- The place of the first digit of `value / denominator`. Below one it is told
by how many digits the reciprocal, rounded up and less one, is written with. -/
def Basin.firstPlace (b : Basin) : Int :=
  if b.denominator ≤ b.value then
    (digitCount (b.value / b.denominator) : Int) - 1
  else
    -(digitCount ((b.denominator + b.value - 1) / b.value - 1) : Int)

/-- The candidate with its last digit at `place`, if the grid of that place has
a point in the basin. -/
def Basin.onGrid (tie : Tie) (b : Basin) (place : Int) : Option Nat :=
  -- Point `d` of the grid is `d * step`, once the basin is scaled by `scale`.
  let scale := Nat.pow 10 (-place).toNat
  let step := b.denominator * Nat.pow 10 place.toNat
  let inside (d : Nat) : Bool :=
    if b.closed then b.low * scale ≤ d * step && d * step ≤ b.high * scale
    else b.low * scale < d * step && d * step < b.high * scale
  let d := b.value * scale / step
  match inside d, inside (d + 1) with
  | false, false => none
  | true, false => some d
  | false, true => some (d + 1)
  | true, true =>
    let fromBelow := b.value * scale - d * step
    let fromAbove := (d + 1) * step - b.value * scale
    if fromBelow < fromAbove then some d
    else if fromAbove < fromBelow then some (d + 1)
    else match tie with
      | .toEven => some (if d % 2 = 0 then d else d + 1)
      | .up => some (d + 1)

/-- Zeros at the end of a coefficient moved into the exponent. Each step divides
the coefficient by ten, so its own number of digits bounds the steps. -/
def stripZeros (coefficient : Nat) (exponent : Int) : Nat × Int :=
  go (digitCount coefficient) coefficient exponent
where
  go : Nat → Nat → Int → Nat × Int
    | 0, c, e => (c, e)
    | n + 1, c, e => if c % 10 = 0 then go n (c / 10) (e + 1) else (c, e)

/-- The shortest decimal that reads back as the given finite double. -/
def shortest (tie : Tie) (x : Float) : Decimal :=
  let p := Binary64.parts x
  if p.significand = 0 then ⟨Binary64.isNegative x, 0, 0⟩
  else
    let b := Basin.ofParts p
    let found := (List.range 17).findSome? fun (more : Nat) =>
      let place := b.firstPlace - more
      (b.onGrid tie place).map fun d => stripZeros d place
    let (coefficient, exponent) := found.getD (p.significand, p.exponent)
    ⟨Binary64.isNegative x, coefficient, exponent⟩

end FlightPlan.Decimal
