import BlogLedger.Timestamp

/-!
# The calendar

The proleptic Gregorian calendar in Universal Time.

## Main Definitions

* `Calendar.Date`, `Calendar.Moment` — a date, and a date with a time of day.
* `Calendar.dayNumber`, `Calendar.dateOf` — dates as days since the start of 1970.
* `Timestamp.moment`, `Calendar.Moment.seconds` — times as moments and back.

## Design Notes

Years are counted from March, so that the leap day is the last day of the year.  A date is then a
place in a cycle of 400 years, which has 146097 days.
-/

namespace BlogLedger

namespace Calendar

/-- A date. -/
structure Date where
  year : Int
  month : Nat
  day : Nat
  deriving DecidableEq, Repr

/-- A date and a time of day. -/
structure Moment where
  date : Date
  hour : Nat
  minute : Nat
  second : Nat
  deriving DecidableEq, Repr

/-- Days from the start of March of the year 0 to the start of 1970. -/
def epoch : Int := 719468

/-- How many days passed from the start of 1970 to a date. -/
def dayNumber (d : Date) : Int :=
  let year := if d.month ≤ 2 then d.year - 1 else d.year
  let cycle := year / 400
  let yearOfCycle := year - cycle * 400
  let month := (d.month + 9) % 12
  let dayOfYear : Int := (153 * month + 2) / 5 + d.day - 1
  let dayOfCycle := yearOfCycle * 365 + yearOfCycle / 4 - yearOfCycle / 100 + dayOfYear
  cycle * 146097 + dayOfCycle - epoch

/-- The date that lies `days` days after the start of 1970. -/
def dateOf (days : Int) : Date :=
  let days := days + epoch
  let cycle := days / 146097
  let dayOfCycle := (days - cycle * 146097).toNat
  let yearOfCycle :=
    (dayOfCycle - dayOfCycle / 1460 + dayOfCycle / 36524 - dayOfCycle / 146096) / 365
  let dayOfYear := dayOfCycle - (365 * yearOfCycle + yearOfCycle / 4 - yearOfCycle / 100)
  let month := (5 * dayOfYear + 2) / 153
  let day := dayOfYear - (153 * month + 2) / 5 + 1
  let month := if month < 10 then month + 3 else month - 9
  let year := (yearOfCycle : Int) + cycle * 400
  ⟨if month ≤ 2 then year + 1 else year, month, day⟩

/-- Whether a year has a leap day. -/
def isLeap (year : Int) : Bool :=
  year % 4 = 0 && (year % 100 ≠ 0 || year % 400 = 0)

/-- How many days a month has. -/
def daysIn (year : Int) (month : Nat) : Nat :=
  if month = 2 then (if isLeap year then 29 else 28)
  else if month = 4 || month = 6 || month = 9 || month = 11 then 30
  else 31

/-- Whether a date exists. -/
def Date.IsValid (d : Date) : Prop :=
  1 ≤ d.month ∧ d.month ≤ 12 ∧ 1 ≤ d.day ∧ d.day ≤ daysIn d.year d.month

instance (d : Date) : Decidable d.IsValid := inferInstanceAs (Decidable (_ ∧ _ ∧ _ ∧ _))

/-- Seconds from the start of 1970 to a moment. -/
def Moment.seconds (m : Moment) : Int :=
  dayNumber m.date * 86400 + (m.hour * 3600 + m.minute * 60 + m.second : Nat)

/-- The moment that lies `seconds` seconds after the start of 1970. -/
def momentOf (seconds : Int) : Moment :=
  let days := seconds / 86400
  let rest := (seconds - days * 86400).toNat
  ⟨dateOf days, rest / 3600, rest / 60 % 60, rest % 60⟩

end Calendar

/-- The moment of a time that the calendar can show. -/
def Timestamp.moment? (t : Timestamp) : Option Calendar.Moment :=
  if t.IsRepresentable then some (Calendar.momentOf t.toInt) else none

end BlogLedger
