/-!
# Calendar dates

Dates of the proleptic Gregorian calendar. `Date.ofDayNumber` gives the date of
a day counted from the first of January 1970. The count goes through eras of
four hundred years, each of them 146097 days long, and through years that begin
in March, so that a leap day is the last day of its year.
-/

namespace Logbook.Calendar

/-- A date. The month and the day count from one. -/
structure Date where
  year : Int
  month : Nat
  day : Nat
  deriving DecidableEq, Repr

/-- The year has a leap day. -/
def isLeapYear (year : Int) : Bool := year % 4 = 0 && (year % 100 ≠ 0 || year % 400 = 0)

/-- The number of days before each month of a year without leap day. -/
def daysBefore : List Nat := [0, 31, 59, 90, 120, 151, 181, 212, 243, 273, 304, 334]

namespace Date

/-- The date of a day, counted from the first of January 1970. -/
def ofDayNumber (n : Int) : Date :=
  let shifted := n + 719468
  let era := shifted / 146097
  let dayOfEra := (shifted % 146097).toNat
  let yearOfEra := (dayOfEra - dayOfEra / 1460 + dayOfEra / 36524 - dayOfEra / 146096) / 365
  let dayOfYear := dayOfEra - (365 * yearOfEra + yearOfEra / 4 - yearOfEra / 100)
  let monthFromMarch := (5 * dayOfYear + 2) / 153
  let month := if monthFromMarch < 10 then monthFromMarch + 3 else monthFromMarch - 9
  { year := era * 400 + yearOfEra + if month ≤ 2 then 1 else 0
    month
    day := dayOfYear - (153 * monthFromMarch + 2) / 5 + 1 }

/-- The year is one that dates can have. -/
def isSupported (d : Date) : Bool := -9999 ≤ d.year && d.year ≤ 9999

/-- The day of the year, counted from one. -/
def ordinal (d : Date) : Nat :=
  daysBefore.getD (d.month - 1) 0 + d.day + if 2 < d.month ∧ isLeapYear d.year then 1 else 0

end Date

/-- The day of the week of a day counted from the first of January 1970, with
    zero for Monday. That day was a Thursday. -/
def weekdayOfDayNumber (n : Int) : Nat := ((n + 3) % 7).toNat

/-- The number of the first day of a year, counted from the first of January
    1970. -/
def firstDayNumber (year : Int) : Int :=
  let y := year - 1
  365 * y + y / 4 - y / 100 + y / 400 - 719162

/-- The number of weeks of a year whose weeks begin on Monday and belong to the
    year of their Thursday. -/
def weeksInYear (year : Int) : Nat :=
  let first := weekdayOfDayNumber (firstDayNumber year)
  if first = 3 ∨ (first = 2 ∧ isLeapYear year) then 53 else 52

/-- The week with the given day in it, and the year it belongs to, for weeks
    that begin on Monday and belong to the year of their Thursday. -/
def weekOfYear (d : Date) (weekday : Nat) : Int × Nat :=
  let week := (d.ordinal + 9 - weekday) / 7
  if week = 0 then (d.year - 1, weeksInYear (d.year - 1))
  else if week = 53 ∧ weeksInYear d.year = 52 then (d.year + 1, 1)
  else (d.year, week)

end Logbook.Calendar
