import FlightPlan.Decimal.Reader
import FlightPlan.Text.Blank

/-!
# `FlightPlan.Timestamp`: the times that saved plans carry

A saved plan says when it was last changed, in the manner of RFC 3339:
`2024-05-01T12:00:00+03:30`. The reader is generous about form, as the writers
of such texts are. Blanks may stand around the parts, a blank or either case of
`T` divides date from time, fields may have fewer digits, a year with a sign may
have more, `UTC` may stand for the offset, and the colon in an offset may be
missing. It is strict about meaning: the date must be in the calendar, a
sixtieth second is the only excess a time may have, and the calendar must reach
to the same moment in universal time.

Plans are computed from their targets alone, so nothing but the validity of a
timestamp is ever looked at. Seconds have no part in that once they are read,
because offsets are whole minutes.

* `Date` is a day of the calendar, and `Date.dayNumber` counts the days.
* `minute?` is the moment that a text tells, and `isValid` tests it.
-/

set_option autoImplicit false

namespace FlightPlan.Timestamp

/-! ### The calendar -/

/-- A day by its year, month and day of the month, which count from one. -/
structure Date where
  year : Int
  month : Nat
  day : Nat
deriving DecidableEq, Repr

/-- The first year that the calendar is kept for. -/
def firstYear : Int := -262143

/-- The last year that the calendar is kept for. -/
def lastYear : Int := 262142

/-- The year has a twenty-ninth of February. -/
def isLeap (y : Int) : Bool :=
  y % 4 == 0 && (y % 100 != 0 || y % 400 == 0)

/-- The days of a month. -/
def daysIn (y : Int) (month : Nat) : Nat :=
  if month = 2 then if isLeap y then 29 else 28
  else if month = 4 ∨ month = 6 ∨ month = 9 ∨ month = 11 then 30
  else 31

namespace Date

/-- The date is a day of the calendar. -/
def isInCalendar (d : Date) : Bool :=
  firstYear ≤ d.year && d.year ≤ lastYear && 1 ≤ d.month && d.month ≤ 12 &&
    1 ≤ d.day && d.day ≤ daysIn d.year d.month

/-- The days from the first day of the year 0 to the date. -/
def dayNumber (d : Date) : Int :=
  let leapDays := (d.year + 3) / 4 - (d.year + 99) / 100 + (d.year + 399) / 400
  let earlierMonths : Nat :=
    (List.range (d.month - 1)).foldl (fun days m => days + daysIn d.year (m + 1)) 0
  365 * d.year + leapDays + earlierMonths + d.day - 1

/-- The number of the minute in which the day begins. -/
def firstMinute (d : Date) : Int :=
  24 * 60 * d.dayNumber

end Date

/-- The numbers of the minutes from the first of the calendar to its last. -/
def isMinuteOfCalendar (n : Int) : Bool :=
  Date.firstMinute ⟨firstYear, 1, 1⟩ ≤ n && n < Date.firstMinute ⟨lastYear + 1, 1, 1⟩

/-! ### The parts of the text -/

/-- The text without the blanks in front. -/
def skipBlanks (cs : List Char) : List Char :=
  cs.dropWhile Text.isBlank

/-- A number of at least one digit and at most `width`, and the text after
it. -/
def number (width : Nat) (cs : List Char) : Option (Nat × List Char) :=
  let digits := (cs.takeWhile Char.isDigit).take width
  if digits.isEmpty then none
  else some (Decimal.valueOfDigits digits, cs.drop digits.length)

/-- A number of at most two digits behind blanks. -/
def field (cs : List Char) : Option (Nat × List Char) :=
  number 2 (skipBlanks cs)

/-- The text after a character that must come next behind blanks. -/
def expect (c : Char) (cs : List Char) : Option (List Char) :=
  match skipBlanks cs with
  | d :: rest => if d = c then some rest else none
  | [] => none

/-- A year: four digits, or any number of them behind a sign. -/
def year (cs : List Char) : Option (Int × List Char) :=
  match skipBlanks cs with
  | '-' :: rest => (number rest.length rest).map fun (n, rest) => (-n, rest)
  | '+' :: rest => (number rest.length rest).map fun (n, rest) => (n, rest)
  | rest => (number 4 rest).map fun (n, rest) => (n, rest)

/-- A date of the calendar, and the text after it. -/
def date (cs : List Char) : Option (Date × List Char) := do
  let (y, cs) ← year cs
  let (month, cs) ← field (← expect '-' cs)
  let (day, cs) ← field (← expect '-' cs)
  let d : Date := ⟨y, month, day⟩
  if d.isInCalendar then some (d, cs) else none

/-- The text after a fraction of a second, if there is one. -/
def fraction : List Char → Option (List Char)
  | '.' :: rest =>
    if (rest.takeWhile Char.isDigit).isEmpty then none
    else some (rest.dropWhile Char.isDigit)
  | rest => some rest

/-- A time of the day as the minutes since midnight, and the text after it. -/
def time (cs : List Char) : Option (Nat × List Char) := do
  let (hour, cs) ← field cs
  let (minute, cs) ← field (← expect ':' cs)
  let (second, cs) ← field (← expect ':' cs)
  let cs ← fraction cs
  if hour ≤ 23 ∧ minute ≤ 59 ∧ second ≤ 60 then some (60 * hour + minute, cs) else none

/-- The number of two digits, and the text after them. -/
def twoDigits : List Char → Option (Nat × List Char)
  | a :: b :: rest =>
    if a.isDigit && b.isDigit then some (Decimal.valueOfDigits [a, b], rest) else none
  | _ => none

/-- The minutes of an offset written as hours and minutes, which must be less
than a day, and the text after it. -/
def offsetDigits (cs : List Char) : Option (Nat × List Char) := do
  let (hours, cs) ← twoDigits cs
  let (minutes, cs) ← twoDigits (cs.dropWhile fun c => c == ':' || Text.isBlank c)
  if hours ≤ 23 ∧ minutes ≤ 59 then some (60 * hours + minutes, cs) else none

/-- The minutes by which local time is ahead of universal time, and the text
after them. -/
def offset (cs : List Char) : Option (Int × List Char) :=
  if (cs.take 3).map Char.toUpper = "UTC".toList then some (0, cs.drop 3)
  else
    match cs with
    | [] => none
    | c :: rest =>
      if c = 'Z' ∨ c = 'z' then some (0, rest)
      else if c = '+' then (offsetDigits rest).map fun (n, rest) => (n, rest)
      else if c = '-' ∨ c = '\u2212' then (offsetDigits rest).map fun (n, rest) => (-n, rest)
      else none

/-- The minute of universal time that a timestamp tells, by its number. -/
def minute? (text : String) : Option Int := do
  let (d, cs) ← date text.toList
  match cs with
  | c :: cs =>
    if c = 'T' ∨ c = 't' ∨ c = ' ' then
      let (minutes, cs) ← time cs
      let (ahead, cs) ← offset (skipBlanks cs)
      if (skipBlanks cs).isEmpty then some (d.firstMinute + minutes - ahead) else none
    else none
  | [] => none

/-- The text is a timestamp. -/
def isValid (text : String) : Bool :=
  (minute? text).any isMinuteOfCalendar

end FlightPlan.Timestamp
