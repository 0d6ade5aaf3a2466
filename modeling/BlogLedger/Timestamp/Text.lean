import BlogLedger.Timestamp.Calendar
import BlogLedger.Bytes.Decimal
import BlogLedger.Text.Blank

/-!
# Times as text

A time is written as whole seconds or as a calendar moment with an offset, as RFC 3339 has it.

## Main Definitions

* `Timestamp.display` — the text of a time.
* `Timestamp.read?` — the time that a text writes.

## Design Notes

Years from 0 to 9999 have four digits.  Other years are shown with a sign, which no reader of
RFC 3339 takes.  A sixtieth second counts as the one before it, and fractions are dropped.
-/

namespace BlogLedger

namespace Calendar

/-- A number in at least `width` digits. -/
def padded (width n : Nat) : String :=
  let digits := Nat.toDigits 10 n
  String.ofList (List.replicate (width - digits.length) '0' ++ digits)

/-- The year of a moment: four digits, with a sign outside of 0 to 9999. -/
def displayYear (year : Int) : String :=
  if year < 0 then "-" ++ padded 4 year.natAbs
  else if 9999 < year then "+" ++ padded 4 year.natAbs
  else padded 4 year.natAbs

/-- A moment as text, with the offset of Universal Time. -/
def Moment.display (m : Moment) : String :=
  displayYear m.date.year ++ "-" ++ padded 2 m.date.month ++ "-" ++ padded 2 m.date.day
    ++ "T" ++ padded 2 m.hour ++ ":" ++ padded 2 m.minute ++ ":" ++ padded 2 m.second ++ "+00:00"

/-- Read exactly `count` digits, with `acc` standing before them. -/
def digits? (acc : Nat) : Nat → List Char → Option (Nat × List Char)
  | 0, rest => some (acc, rest)
  | count + 1, c :: rest =>
    if c.isDigit then digits? (10 * acc + (c.toNat - 48)) count rest else none
  | _ + 1, [] => none

/-- Read one of the given characters. -/
def oneOf? (allowed : List Char) : List Char → Option (List Char)
  | c :: rest => if allowed.contains c then some rest else none
  | [] => none

/-- Read a date: four, two and two digits with hyphens between them. -/
def date? (text : List Char) : Option (Date × List Char) := do
  let (year, rest) ← digits? 0 4 text
  let (month, rest) ← digits? 0 2 (← oneOf? ['-'] rest)
  let (day, rest) ← digits? 0 2 (← oneOf? ['-'] rest)
  let date : Date := ⟨year, month, day⟩
  if date.IsValid then some (date, rest) else none

/-- Read a time of day; a sixtieth second counts as the one before it. -/
def timeOfDay? (text : List Char) : Option ((Nat × Nat × Nat) × List Char) := do
  let (hour, rest) ← digits? 0 2 text
  let (minute, rest) ← digits? 0 2 (← oneOf? [':'] rest)
  let (second, rest) ← digits? 0 2 (← oneOf? [':'] rest)
  if hour ≤ 23 ∧ minute ≤ 59 ∧ second ≤ 60 then some ((hour, minute, min second 59), rest) else none

/-- Drop a fraction of a second, if there is one. -/
def dropFraction? : List Char → Option (List Char)
  | '.' :: rest => if rest.head?.any Char.isDigit then some (rest.dropWhile Char.isDigit) else none
  | rest => some rest

/-- Read an offset in hours and minutes. -/
def hoursMinutes? (text : List Char) : Option Int := do
  let (hours, rest) ← digits? 0 2 text
  let (minutes, rest) ← digits? 0 2 (← oneOf? [':'] rest)
  if hours ≤ 23 ∧ minutes ≤ 59 ∧ rest = [] then some (hours * 3600 + minutes * 60 : Nat) else none

/-- Read the offset that ends a moment, in seconds; a minus sign may be a hyphen or U+2212. -/
def offset? : List Char → Option Int
  | ['Z'] | ['z'] => some 0
  | '+' :: rest => hoursMinutes? rest
  | c :: rest =>
    if c = '-' ∨ c = Char.ofNat 0x2212 then (hoursMinutes? rest).map (- ·) else none
  | [] => none

/-- The seconds since the start of 1970 of a moment with an offset. -/
def read? (text : List Char) : Option Int := do
  let (date, rest) ← date? text
  let ((hour, minute, second), rest) ← timeOfDay? (← oneOf? ['T', 't', ' '] rest)
  let offset ← offset? (← dropFraction? rest)
  return (Moment.mk date hour minute second).seconds - offset

end Calendar

namespace Timestamp

/-- The text of a time: a calendar moment, or the plain seconds when there is none. -/
def display (t : Timestamp) : String :=
  match t.moment? with
  | some m => m.display
  | none => toString t.toInt

/-- The time of whole seconds in decimal digits, with an optional sign. -/
def ofDecimal? (text : String) : Option Timestamp :=
  ((Decimal.int? (Bytes.ofText text)).bind Word.ofInt?).map Timestamp.mk

/-- The time that a text without blanks around it writes. -/
def ofText? (text : String) : Option Timestamp :=
  (ofDecimal? text).or ((Calendar.read? text.toList).map fun s => ⟨Int64.ofInt s⟩)

/-- The time that a text writes; blanks around it are ignored. -/
def read? (text : String) : Option Timestamp :=
  ofText? (Blank.trim text)

end Timestamp

end BlogLedger
