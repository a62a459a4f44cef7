/-!
# `FlightPlan.Binary64.Parts`: a finite double as an exact product

A finite double is a sign and a magnitude `significand * 2 ^ exponent` of
natural `significand` and whole `exponent`. `parts` reads the two off the bits,
`ofParts` goes back, and `remainder` computes in these exact numbers the
remainder of a truncating division, which is again a double.
-/

set_option autoImplicit false

namespace FlightPlan.Binary64

/-- The magnitude `significand * 2 ^ exponent` of a finite double. -/
structure Parts where
  /-- The digits, below `2 ^ 53`. -/
  significand : Nat
  /-- The binary place of the last digit. -/
  exponent : Int
deriving DecidableEq, Repr

/-- The sign bit. It is set for `-0.0` as well. -/
def isNegative (x : Float) : Bool :=
  x.toBits >>> 63 == 1

/-- The exact magnitude of a finite double. An exponent field of zero stands for
the subnormal numbers, which have no leading one of their own. -/
def parts (x : Float) : Parts :=
  let bits : Nat := x.toBits.toNat
  let field : Nat := bits / Nat.pow 2 52 % Nat.pow 2 11
  let fraction := bits % Nat.pow 2 52
  if field = 0 then ⟨fraction, -1074⟩ else ⟨Nat.pow 2 52 + fraction, (field : Int) - 1075⟩

/-- The double `2 ^ exponent`, for an exponent from `-1074` to `1023`. -/
def twoPow (exponent : Int) : Float :=
  if exponent < -1022 then Float.ofBits (1 <<< (exponent + 1074).toNat.toUInt64)
  else Float.ofBits ((exponent + 1023).toNat.toUInt64 <<< 52)

/-- The double of an exact magnitude. It is exact when the significand is below
`2 ^ 53` and the product is in the range of doubles. -/
def ofParts (p : Parts) : Float :=
  Float.ofNat p.significand * twoPow p.exponent

/-- The remainder of `x` on division by `divisor` with the quotient cut off
toward zero. It takes the sign of `x`, also when it is zero, and it is exact:
both magnitudes are counted in units of the lower binary place, and the
remainder of the counts is below one of the two significands. -/
def remainder (x divisor : Float) : Float :=
  if ¬ x.isFinite ∨ divisor.isNaN ∨ divisor == 0.0 then 0.0 / 0.0
  else if ¬ divisor.isFinite then x
  else
    let a := parts x
    let b := parts divisor
    let unit := min a.exponent b.exponent
    let count := a.significand * Nat.pow 2 (a.exponent - unit).toNat
      % (b.significand * Nat.pow 2 (b.exponent - unit).toNat)
    let magnitude := ofParts ⟨count, unit⟩
    if isNegative x then -magnitude else magnitude

end FlightPlan.Binary64
