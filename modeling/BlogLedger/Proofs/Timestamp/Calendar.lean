import BlogLedger.Timestamp.Calendar
import Mathlib.Tactic.IntervalCases

/-!
# The calendar is Gregorian

The date of a day is computed from its place in a cycle of 400 years, and the number of a day from
its date.  Both count as the calendar does: from one day to the next the date moves on by the
lengths of months and years, and either computation undoes the other.

The computation of a date divides by 1460, 36524 and 146096, and it is not evident why this gives
the year.  It is shown on days that are given by what is complete before them, centuries first.  For
such a day each quotient can be told, and the years come out as they should.  That every day can be
given so is shown apart.

## Main Definitions

* `Calendar.Date.next` — the day after a date.
* `Calendar.CycleDay` — a day of a cycle of 400 years, by what is complete before it.
* `Calendar.IsGregorian` — dates follow each other from the start of 1970 on, and back.
* `Calendar.Moment.IsAt` — a moment, and how many seconds away it is.

## Main Results

* `Calendar.dateOf_cycleDay`, `Calendar.dayNumber_fromMarch` — both computations on one form of
  dates.
* `Calendar.isGregorian` — the calendar is the proleptic Gregorian one.
* `Calendar.isAt_momentOf` — a moment is as many seconds away as it was computed from.

## Design Notes

Inside the proofs years and months are counted from March and days from zero, so that the leap day
comes last.  Four years have 1461 days and a century 36524, with one day less for the century than
for its years, and the last year of a cycle has the day that the other centuries lack.
-/

namespace BlogLedger.Calendar

/-! ### Definitions -/

/-- The day after a date, by the lengths of months.  It is what the computation is measured by, as
it says what a calendar does without any formula. -/
def Date.next (d : Date) : Date :=
  if d.day < daysIn d.year d.month then { d with day := d.day + 1 }
  else if d.month < 12 then ⟨d.year, d.month + 1, 1⟩
  else ⟨d.year + 1, 1, 1⟩

/-- The days are numbered as in the proleptic Gregorian calendar.  The start and the next day
determine the date of every day, and the last two parts say that numbers and dates belong to each
other. -/
structure IsGregorian : Prop where
  start : dateOf 0 = ⟨1970, 1, 1⟩
  valid : ∀ n, (dateOf n).IsValid
  /-- The date of the next day is the next date.  It holds for negative days as well. -/
  next : ∀ n, dateOf (n + 1) = (dateOf n).next
  dayNumber_dateOf : ∀ n, dayNumber (dateOf n) = n
  dateOf_dayNumber : ∀ d : Date, d.IsValid → dateOf (dayNumber d) = d

/-- A date that exists and a time of day that a clock shows, as many seconds after the start of
1970.  A clock shows no leap seconds. -/
structure Moment.IsAt (m : Moment) (seconds : Int) : Prop where
  date : m.date.IsValid
  hour : m.hour ≤ 23
  minute : m.minute ≤ 59
  second : m.second ≤ 59
  seconds : m.seconds = seconds

/-- A day of a cycle of 400 years, by the centuries, the groups of four years, the years and the
days that are complete before it.  The bounds are those of the calendar, so a day has one such form. -/
structure CycleDay where
  centuries : Nat
  fours : Nat
  singles : Nat
  days : Nat
  centuries_lt : centuries < 4
  fours_lt : fours < 25
  singles_lt : singles < 4
  days_lt : days < 366
  /-- The last year of four has one more day, unless it ends a century that does not end the
  cycle. -/
  leap : days = 365 → singles = 3 ∧ (fours < 24 ∨ centuries = 3)

/-! ### Cycles of 400 years -/

namespace CycleDay

/-- The years of the cycle before the year of a day.  Years begin with March here. -/
def year (p : CycleDay) : Nat := 100 * p.centuries + 4 * p.fours + p.singles

/-- The days of the cycle before a day. -/
def number (p : CycleDay) : Nat := 36524 * p.centuries + 1461 * p.fours + 365 * p.singles + p.days

theorem number_lt (p : CycleDay) : p.number < 146097 := by
  obtain ⟨c, f, s, d, hc, hf, hs, hd, hleap⟩ := p
  unfold number
  dsimp only
  omega

/-- Divided by 1460, the days before a day count the leap days before it, and one more for some days
at the end of a group of four years.  The one more is taken from the days of the year, which are
rounded away afterwards, and on a leap day it is what keeps them below 365. -/
theorem number_div_fours (p : CycleDay) : ∃ early,
    p.number / 1460 = 25 * p.centuries + p.fours + early
      ∧ (early = 0 ∧ p.days < 365 ∨ early = 1 ∧ 0 < p.days) := by
  obtain ⟨c, f, s, d, hc, hf, hs, hd, hleap⟩ := p
  have hlast : d = 365 → s = 3 := fun h => (hleap h).1
  unfold number
  dsimp only
  clear hleap
  generalize hn : 36524 * c + 1461 * f + 365 * s + d = n
  have hdiv : n / 1460 = 25 * c + f + (24 * c + f + 365 * s + d) / 1460 := by omega
  refine ⟨_, hdiv, ?_⟩
  clear hdiv hn
  omega

/-- Divided by 36524, they count the centuries, and one more for the last day of the cycle.  Divided
by 146096 they count this day alone, so the two together count the centuries. -/
theorem number_div_centuries (p : CycleDay) :
    p.number / 36524 = p.centuries + p.number / 146096 := by
  obtain ⟨c, f, s, d, hc, hf, hs, hd, hleap⟩ := p
  unfold number
  dsimp only
  generalize hn : 36524 * c + 1461 * f + 365 * s + d = n
  by_cases hlast : 1461 * f + 365 * s + d = 36524
  · obtain rfl : c = 3 := by omega
    omega
  · have hrest : 1461 * f + 365 * s + d < 36524 := by omega
    have hcentury : n / 36524 = c := by omega
    have hcycle : n / 146096 = 0 := by omega
    omega

/-- Without their leap days the years have 365 days each.  So a division by 365 gives the year, and
this is the formula that the calendar uses. -/
theorem year_eq (p : CycleDay) :
    (p.number - p.number / 1460 + p.number / 36524 - p.number / 146096) / 365 = p.year := by
  obtain ⟨early, hfours, hearly⟩ := p.number_div_fours
  have hyears : p.number - p.number / 1460 + p.number / 36524 - p.number / 146096
      = 365 * p.year + (p.days - early) := by
    rw [p.number_div_centuries, hfours]
    unfold number year
    omega
  have hdays := p.days_lt
  rw [hyears]
  omega

theorem number_eq (p : CycleDay) :
    365 * p.year + p.year / 4 - p.year / 100 + p.days = p.number := by
  obtain ⟨c, f, s, d, hc, hf, hs, hd, hleap⟩ := p
  unfold year number
  dsimp only
  omega

/-- Every day of a cycle is one of these.  Centuries are taken off first, then groups of four years,
then years, where a day that is left over stays with the last one. -/
theorem exists_number {n : Nat} (h : n < 146097) : ∃ p : CycleDay, p.number = n := by
  obtain ⟨c, a, hc, ha, rfl⟩ : ∃ c a, c < 4 ∧ (a < 36524 ∨ c = 3 ∧ a < 36525) ∧ n = 36524 * c + a :=
    ⟨min (n / 36524) 3, n - 36524 * min (n / 36524) 3, by omega, by omega, by omega⟩
  obtain ⟨f, b, hf, hb, rfl⟩ : ∃ f b, f < 25 ∧ b < 1461 ∧ a = 1461 * f + b :=
    ⟨a / 1461, a % 1461, by omega, by omega, by omega⟩
  obtain ⟨s, d, hs, hd, rfl⟩ : ∃ s d, s < 4 ∧ (d < 365 ∨ s = 3 ∧ d < 366) ∧ b = 365 * s + d :=
    ⟨min (b / 365) 3, b - 365 * min (b / 365) 3, by omega, by omega, by omega⟩
  refine ⟨⟨c, f, s, d, hc, hf, hs, by omega, by omega⟩, ?_⟩
  unfold number
  dsimp only
  omega

end CycleDay

/-! ### Years and months from March -/

/-- The days before a year, where both are counted from the first of March of the year 0.  Here no
cycle is set apart, and years may be negative. -/
def daysBefore (year : Int) : Int := 365 * year + year / 4 - year / 100 + year / 400

/-- The days of a year before a month, where both are counted from March.  From March on the lengths
of months follow the pattern 31, 30, 31, 30, 31, which this formula gives. -/
def monthStart (month : Nat) : Nat := (153 * month + 2) / 5

/-- The month of a day of a year, where both are counted from March.  It inverts the formula for the
start of a month. -/
def monthOf (day : Nat) : Nat := (5 * day + 2) / 153

/-- The date of a day, counted from zero, in a month, counted from March.  January and February
belong to the next year. -/
def fromMarch (year : Int) (month day : Nat) : Date :=
  ⟨if month < 10 then year else year + 1, if month < 10 then month + 3 else month - 9, day + 1⟩

theorem isLeap_iff (year : Int) :
    isLeap year = true ↔ year % 4 = 0 ∧ (year % 100 ≠ 0 ∨ year % 400 = 0) := by
  simp [isLeap]

/-- A year from March has the leap day of the year that it ends in.  This is the rule of leap years,
for the formula. -/
theorem daysBefore_succ (year : Int) :
    daysBefore (year + 1) = daysBefore year + if isLeap (year + 1) = true then 366 else 365 := by
  have hleap := isLeap_iff (year + 1)
  unfold daysBefore
  split
  · next h =>
    have hrule := hleap.1 h
    omega
  · next h =>
    have hrule := mt hleap.2 h
    omega

theorem daysBefore_cycleDay (cycle : Int) (p : CycleDay) :
    daysBefore (400 * cycle + p.year) + p.days = 146097 * cycle + p.number := by
  obtain ⟨c, f, s, d, hc, hf, hs, hd, hleap⟩ := p
  unfold daysBefore CycleDay.year CycleDay.number
  dsimp only
  omega

/-- A day of a year lies in its month.  The month after the last one starts later than the year
ends. -/
theorem monthOf_spec {day : Nat} (h : day < 366) :
    monthOf day < 12 ∧ monthStart (monthOf day) ≤ day ∧ day < monthStart (monthOf day + 1) := by
  unfold monthOf monthStart
  omega

theorem monthOf_monthStart {month day : Nat}
    (h : monthStart month + day < monthStart (month + 1)) :
    monthOf (monthStart month + day) = month := by
  unfold monthOf
  unfold monthStart at *
  omega

/-- A month from March lasts until the next one starts, except for February.  The twelve months are
gone through. -/
theorem daysIn_fromMarch (year : Int) {month : Nat} (h : month < 12) (day : Nat) :
    daysIn (fromMarch year month day).year (fromMarch year month day).month
      = if month = 11 then (if isLeap (year + 1) then 29 else 28)
        else monthStart (month + 1) - monthStart month := by
  interval_cases month <;> rfl

theorem isValid_fromMarch (year : Int) {month day : Nat} (h : month < 12) :
    (fromMarch year month day).IsValid
      ↔ day < daysIn (fromMarch year month day).year (fromMarch year month day).month := by
  have hmonth : 1 ≤ (fromMarch year month day).month ∧ (fromMarch year month day).month ≤ 12 := by
    unfold fromMarch
    dsimp only
    split <;> omega
  have hday : (fromMarch year month day).day = day + 1 := rfl
  unfold Date.IsValid
  rw [hday]
  omega

/-- Every date that exists can be counted from March.  So what is shown of such dates is shown of
all. -/
theorem Date.IsValid.exists_fromMarch {d : Date} (h : d.IsValid) :
    ∃ (year : Int) (month day : Nat), month < 12 ∧ d = fromMarch year month day := by
  obtain ⟨year, month, day⟩ := d
  obtain ⟨hlow, hhigh, hfirst, -⟩ := h
  dsimp only at hlow hhigh hfirst
  refine ⟨if month ≤ 2 then year - 1 else year, (month + 9) % 12, day - 1, by omega, ?_⟩
  unfold fromMarch
  rw [Date.mk.injEq]
  split <;> split <;> omega

/-- A date is the day that lies as far from the first of March.  In this form a date is a sum, and
the next day adds one to it. -/
theorem dayNumber_fromMarch (year : Int) {month : Nat} (h : month < 12) (day : Nat) :
    dayNumber (fromMarch year month day)
      = daysBefore year + (monthStart month + day : Nat) - epoch := by
  unfold dayNumber fromMarch monthStart daysBefore
  dsimp only
  by_cases hyear : month < 10
  · have hback : (month + 3 + 9) % 12 = month := by omega
    rw [if_pos hyear, if_pos hyear, if_neg (by omega), hback]
    omega
  · have hback : (month - 9 + 9) % 12 = month := by omega
    rw [if_neg hyear, if_neg hyear, if_pos (by omega), hback]
    omega

/-! ### Dates of days -/

/-- Every day lies somewhere in some cycle.  Days before the first cycle lie in cycles with negative
numbers. -/
theorem exists_cycleDay (n : Int) :
    ∃ (cycle : Int) (p : CycleDay), n = 146097 * cycle + p.number - epoch := by
  obtain ⟨p, hp⟩ := CycleDay.exists_number (n := ((n + epoch) % 146097).toNat) (by omega)
  refine ⟨(n + epoch) / 146097, p, ?_⟩
  rw [hp]
  omega

/-- The date of a day, counted from March.  The formula of the calendar is opened here and nowhere
else. -/
theorem dateOf_cycleDay (cycle : Int) (p : CycleDay) :
    dateOf (146097 * cycle + p.number - epoch)
      = fromMarch (400 * cycle + p.year) (monthOf p.days)
          (p.days - monthStart (monthOf p.days)) := by
  have hnumber := p.number_lt
  have hdays : 146097 * cycle + p.number - epoch + epoch = 146097 * cycle + p.number := by omega
  have hcycle : (146097 * cycle + p.number) / 146097 = cycle := by omega
  have hof : (146097 * cycle + p.number - cycle * 146097).toNat = p.number := by omega
  have hstart := p.number_eq
  have hday : p.number - (365 * p.year + p.year / 4 - p.year / 100) = p.days := by omega
  have hyear : (p.year : Int) + cycle * 400 = 400 * cycle + p.year := by omega
  have hmonth := (monthOf_spec p.days_lt).1
  unfold dateOf fromMarch
  dsimp only
  rw [hdays, hcycle, hof, p.year_eq, hday, ← monthOf, ← monthStart, hyear]
  by_cases h : monthOf p.days < 10
  · rw [if_pos h, if_pos h, if_neg (by omega)]
  · rw [if_neg h, if_neg h, if_pos (by omega)]

/-- The last day of a year that has 366 is a leap day.  In the form of a day this is a condition on
its numbers, and here it is the rule of leap years. -/
theorem CycleDay.isLeap (p : CycleDay) (cycle : Int) (h : p.days = 365) :
    isLeap (400 * cycle + p.year + 1) = true := by
  obtain ⟨c, f, s, d, hc, hf, hs, hd, hleap⟩ := p
  obtain ⟨rfl, hlast⟩ := hleap h
  rw [isLeap_iff]
  unfold year
  dsimp only
  omega

/-- The date of a day exists.  The only month that can end too early is February, and this is the
last month of the year. -/
theorem isValid_dateOf (n : Int) : (dateOf n).IsValid := by
  obtain ⟨cycle, p, rfl⟩ := exists_cycleDay n
  obtain ⟨hmonth, hstart, hstop⟩ := monthOf_spec p.days_lt
  rw [dateOf_cycleDay, isValid_fromMarch _ hmonth, daysIn_fromMarch _ hmonth]
  by_cases hfebruary : monthOf p.days = 11
  · have hleap := p.isLeap cycle
    have hdays := p.days_lt
    have hlast : monthStart 11 = 337 := rfl
    rw [if_pos hfebruary, hfebruary]
    split
    · omega
    · next hnot =>
      have hne : p.days ≠ 365 := fun h => hnot (hleap h)
      omega
  · rw [if_neg hfebruary]
    omega

/-- A day has the number of its date.  Both are sums over the same years and months. -/
theorem dayNumber_dateOf (n : Int) : dayNumber (dateOf n) = n := by
  obtain ⟨cycle, p, rfl⟩ := exists_cycleDay n
  obtain ⟨hmonth, hstart, -⟩ := monthOf_spec p.days_lt
  rw [dateOf_cycleDay, dayNumber_fromMarch _ hmonth, Nat.add_sub_cancel' hstart,
    daysBefore_cycleDay]

/-- Every date that exists is that of some day in some cycle.  It is the other half of the
correspondence, and it is needed to go from dates to days. -/
theorem Date.IsValid.exists_cycleDay {d : Date} (h : d.IsValid) :
    ∃ (cycle : Int) (p : CycleDay) (month day : Nat),
      month < 12 ∧ p.days = monthStart month + day
        ∧ monthStart month + day < monthStart (month + 1)
        ∧ d = fromMarch (400 * cycle + p.year) month day := by
  obtain ⟨year, month, day, hmonth, rfl⟩ := h.exists_fromMarch
  rw [isValid_fromMarch _ hmonth, daysIn_fromMarch _ hmonth] at h
  have hlast : monthStart 11 = 337 := rfl
  -- The day lies in its month, and only the leap day makes it the last one of a year of 366.
  have hday : monthStart month + day < monthStart (month + 1) ∧ monthStart month + day < 366
      ∧ (monthStart month + day = 365 → isLeap (year + 1) = true) := by
    by_cases hfebruary : month = 11
    · have hend : monthStart (month + 1) = 367 := by rw [hfebruary]; rfl
      rw [if_pos hfebruary] at h
      rw [hend, hfebruary, hlast]
      split at h
      · next hleap => exact ⟨by omega, by omega, fun _ => hleap⟩
      · exact ⟨by omega, by omega, fun hday => by omega⟩
    · have hend : monthStart (month + 1) ≤ 337 := by
        unfold monthStart
        omega
      rw [if_neg hfebruary] at h
      exact ⟨by omega, by omega, fun hday => by omega⟩
  obtain ⟨hstop, hlt, hleap⟩ := hday
  rw [isLeap_iff] at hleap
  refine ⟨year / 400, ⟨(year % 400 / 100).toNat, (year % 100 / 4).toNat, (year % 4).toNat,
    monthStart month + day, by omega, by omega, by omega, hlt, by omega⟩, month, day, hmonth, rfl,
    hstop, ?_⟩
  congr 1
  unfold CycleDay.year
  dsimp only
  omega

/-- A date that exists is the date of its day. -/
theorem dateOf_dayNumber {d : Date} (h : d.IsValid) : dateOf (dayNumber d) = d := by
  obtain ⟨cycle, p, month, day, hmonth, hdays, hstop, rfl⟩ := h.exists_cycleDay
  have hof : monthOf p.days = month := by rw [hdays, monthOf_monthStart hstop]
  rw [dayNumber_fromMarch _ hmonth, ← hdays, daysBefore_cycleDay, dateOf_cycleDay, hof, hdays,
    Nat.add_sub_cancel_left]

/-! ### The day after -/

theorem le_daysIn (year : Int) (month : Nat) : 28 ≤ daysIn year month := by
  unfold daysIn
  split <;> split <;> omega

/-- The day after a date exists. -/
theorem Date.IsValid.next {d : Date} (h : d.IsValid) : d.next.IsValid := by
  obtain ⟨year, month, day⟩ := d
  obtain ⟨hlow, hhigh, hfirst, -⟩ := h
  have hmonth := le_daysIn year (month + 1)
  have hyear := le_daysIn (year + 1) 1
  dsimp only at hlow hhigh hfirst
  unfold Date.next Date.IsValid
  dsimp only
  split
  · dsimp only
    omega
  · split
    · dsimp only
      omega
    · dsimp only
      omega

/-- The day after the last one of a month, where months are counted from March.  The year changes
with January, which is no special month from March on, and the count begins anew after February. -/
theorem next_fromMarch_last {year : Int} {month day : Nat} (hmonth : month < 12)
    (hlast : day + 1 = daysIn (fromMarch year month day).year (fromMarch year month day).month) :
    (fromMarch year month day).next
      = if month = 11 then fromMarch (year + 1) 0 0 else fromMarch year (month + 1) 0 := by
  have hday : (fromMarch year month day).day = day + 1 := rfl
  unfold Date.next
  rw [hday, if_neg (Nat.not_lt.2 (Nat.le_of_eq hlast.symm))]
  clear hlast hday
  interval_cases month <;> rfl

/-- The day after a date has the next number.  The cases are those of the next day: within a month,
and at its end. -/
theorem dayNumber_next {d : Date} (h : d.IsValid) : dayNumber d.next = dayNumber d + 1 := by
  obtain ⟨year, month, day, hmonth, rfl⟩ := h.exists_fromMarch
  rw [isValid_fromMarch _ hmonth] at h
  by_cases hinside :
      day + 1 < daysIn (fromMarch year month day).year (fromMarch year month day).month
  · have hnext : (fromMarch year month day).next = fromMarch year month (day + 1) := if_pos hinside
    rw [hnext, dayNumber_fromMarch _ hmonth, dayNumber_fromMarch _ hmonth]
    omega
  · have hlast := Nat.le_antisymm h (Nat.not_lt.1 hinside)
    rw [next_fromMarch_last hmonth hlast, dayNumber_fromMarch _ hmonth]
    rw [daysIn_fromMarch _ hmonth] at hlast
    by_cases hfebruary : month = 11
    · -- The year is over, and its length is settled by the leap day.
      have hstart : monthStart 11 = 337 ∧ monthStart 0 = 0 := ⟨rfl, rfl⟩
      rw [if_pos hfebruary] at hlast
      rw [if_pos hfebruary, dayNumber_fromMarch _ (by omega), daysBefore_succ, hfebruary]
      by_cases hleap : isLeap (year + 1) = true
      · rw [if_pos hleap] at hlast ⊢
        omega
      · rw [if_neg hleap] at hlast ⊢
        omega
    · have hstart : monthStart month ≤ monthStart (month + 1) := by
        unfold monthStart
        omega
      rw [if_neg hfebruary] at hlast
      rw [if_neg hfebruary, dayNumber_fromMarch _ (by omega)]
      omega

/-- The calendar is the proleptic Gregorian one.  That dates follow each other comes from their
numbers, as a date is determined by its number. -/
theorem isGregorian : IsGregorian where
  start := by decide
  valid := isValid_dateOf
  next n := by
    have hnumber := dayNumber_next (isValid_dateOf n)
    rw [dayNumber_dateOf] at hnumber
    rw [← hnumber, dateOf_dayNumber (isValid_dateOf n).next]
  dayNumber_dateOf := dayNumber_dateOf
  dateOf_dayNumber _ := dateOf_dayNumber

/-! ### Moments -/

/-- The moment that was computed from seconds is the one that many seconds away.  What is left of a
day is divided into hours, minutes and seconds, and nothing is lost. -/
theorem isAt_momentOf (s : Int) : (momentOf s).IsAt s := by
  have hdate : (momentOf s).date = dateOf (s / 86400) := rfl
  have hrest : 0 ≤ s - s / 86400 * 86400 ∧ s - s / 86400 * 86400 < 86400 := by omega
  refine ⟨isValid_dateOf _, ?_, ?_, ?_, ?_⟩
  · unfold momentOf
    dsimp only
    omega
  · unfold momentOf
    dsimp only
    omega
  · unfold momentOf
    dsimp only
    omega
  · rw [Moment.seconds, hdate, dayNumber_dateOf]
    unfold momentOf
    dsimp only
    omega

end BlogLedger.Calendar
