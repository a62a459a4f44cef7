/-!
# `FlightPlan.Text.Hex`: hexadecimal digits

A digit is one of sixteen values. It is read in either case and written in
lowercase.
-/

set_option autoImplicit false

namespace FlightPlan.Text

/-- The digit that a number ends in when it is written in sixteens. -/
def lastHex (n : Nat) : Fin 16 :=
  ⟨n % 16, Nat.mod_lt n (by decide)⟩

/-- The value of a hexadecimal digit. -/
def hexDigit? (c : Char) : Option (Fin 16) :=
  if '0' ≤ c ∧ c ≤ '9' then some (lastHex (c.toNat - '0'.toNat))
  else if 'a' ≤ c ∧ c ≤ 'f' then some (lastHex (c.toNat - 'a'.toNat + 10))
  else if 'A' ≤ c ∧ c ≤ 'F' then some (lastHex (c.toNat - 'A'.toNat + 10))
  else none

/-- The lowercase character of a hexadecimal digit. -/
def hexChar (d : Fin 16) : Char :=
  Nat.digitChar d

/-- Every digit is read back from its character. -/
theorem hexDigit?_hexChar : ∀ d : Fin 16, hexDigit? (hexChar d) = some d := by
  decide

end FlightPlan.Text
