import FlightPlan.Text.Combining
import FlightPlan.Text.Unassigned

/-!
# `FlightPlan.Text.Unprinted`: characters that do not show by themselves

Printed as they are, some characters would vanish or change their neighbours, so
quoted text writes their numbers instead (`FlightPlan.Text.Quoted`). They are

* `invisibleRanges`: control characters, format characters, separators other
  than the plain space, private use characters, and fillers;
* `combiningRanges`: marks that join the character before them;
* `unassignedRanges`: numbers without a character.
-/

set_option autoImplicit false

namespace FlightPlan.Text

/-- The ranges of characters without a shape, first and last number, in order:
the general categories `Cc`, `Cf`, `Co`, `Zl`, `Zp` and, for all but the plain
space, `Zs`, and the letters of `Default_Ignorable_Code_Point`, which fill the
place of another. -/
def invisibleRanges : Array (Nat × Nat) := #[
  (0x0, 0x1F), (0x7F, 0xA0), (0xAD, 0xAD), (0x600, 0x605), (0x61C, 0x61C),
  (0x6DD, 0x6DD), (0x70F, 0x70F), (0x890, 0x891), (0x8E2, 0x8E2), (0x115F, 0x1160),
  (0x1680, 0x1680), (0x180E, 0x180E), (0x2000, 0x200F), (0x2028, 0x202F),
  (0x205F, 0x2064), (0x2066, 0x206F), (0x3000, 0x3000), (0x3164, 0x3164),
  (0xE000, 0xF8FF), (0xFEFF, 0xFEFF), (0xFFA0, 0xFFA0), (0xFFF9, 0xFFFB),
  (0x110BD, 0x110BD), (0x110CD, 0x110CD), (0x13430, 0x1343F), (0x1BCA0, 0x1BCA3),
  (0x1D173, 0x1D17A), (0xE0001, 0xE0001), (0xE0020, 0xE007F), (0xF0000, 0xFFFFD),
  (0x100000, 0x10FFFD)]

/-- The character's number is in one of the ranges. -/
def isInRanges (ranges : Array (Nat × Nat)) (c : Char) : Bool :=
  ranges.any fun (first, last) => first ≤ c.toNat && c.toNat ≤ last

/-- The character vanishes in print, or changes a neighbour. -/
def isUnprinted (c : Char) : Bool :=
  isInRanges invisibleRanges c || isInRanges combiningRanges c || isInRanges unassignedRanges c

end FlightPlan.Text
