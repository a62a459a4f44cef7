import FlightPlan.Text.Unprinted

/-!
# `FlightPlan.Text.Quoted`: text quoted in messages

A message that names a piece of typed text puts it in quotation marks. Quotation
marks and backslashes inside are escaped, tab, line feed, carriage return and
the null character have letters of their own, and every other character that
does not show is written as its number.
-/

set_option autoImplicit false

namespace FlightPlan.Text

/-- A number in lowercase hexadecimal digits. -/
def hexText (n : Nat) : List Char :=
  Nat.toDigits 16 n

/-- One character inside quotation marks. -/
def quotedChar (c : Char) : List Char :=
  if c = '"' then ['\\', '"']
  else if c = '\\' then ['\\', '\\']
  else if c = '\t' then ['\\', 't']
  else if c = '\n' then ['\\', 'n']
  else if c = '\r' then ['\\', 'r']
  else if c = '\x00' then ['\\', '0']
  else if isUnprinted c then ['\\', 'u', '\x7b'] ++ hexText c.toNat ++ ['\x7d']
  else [c]

/-- The text in quotation marks. -/
def quoted (cs : List Char) : String :=
  String.ofList ('"' :: cs.flatMap quotedChar ++ ['"'])

end FlightPlan.Text
