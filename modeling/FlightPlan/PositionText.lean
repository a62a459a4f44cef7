import FlightPlan.Decimal.Reader
import FlightPlan.Message
import FlightPlan.Position
import FlightPlan.Binary64.Scalar
import FlightPlan.Text.Blank
import FlightPlan.Text.Quoted

/-!
# `FlightPlan.PositionText`: typed positions

A position is typed as a latitude and a longitude with a comma between them, and
blanks anywhere around the two numbers. The first comma is the one that counts.
A typed position is always valid; what is refused is refused with the text or
the numbers at fault.
-/

set_option autoImplicit false

namespace FlightPlan

/-- Why a typed position was refused. -/
inductive PositionFault where
  /-- There is no comma. -/
  | noComma (text : List Char)
  /-- The text in front of the comma is no number. -/
  | badLatitude (text : List Char)
  /-- The text behind the comma is no number. -/
  | badLongitude (text : List Char)
  /-- The numbers are no valid position. -/
  | outOfRange (position : Position Float)

/-- The message of a refused position. -/
def PositionFault.message : PositionFault → String
  | .noComma text => "expected LAT,LON, got " ++ Text.quoted text
  | .badLatitude text => "invalid latitude " ++ Text.quoted text
  | .badLongitude text => "invalid longitude " ++ Text.quoted text
  | .outOfRange position =>
    "position out of range: " ++ Message.number position.lat ++ ","
      ++ Message.number position.lon

namespace Position

/-- The number that a typed text is, with blanks around it. -/
def readCoordinate (cs : List Char) : Option Float :=
  Decimal.readFloat (Text.trim cs)

/-- The position that is typed. -/
def readTyped (cs : List Char) : Except PositionFault (Position Float) :=
  let latText := cs.takeWhile (· != ',')
  match cs.dropWhile (· != ',') with
  | [] => .error (.noComma cs)
  | _ :: lonText =>
    match readCoordinate latText, readCoordinate lonText with
    | none, _ => .error (.badLatitude latText)
    | some _, none => .error (.badLongitude lonText)
    | some lat, some lon =>
      let position : Position Float := ⟨lat, lon⟩
      if position.isValid then .ok position else .error (.outOfRange position)

end Position

end FlightPlan
