import Logbook.Calendar.Timestamp

/-!
# Timestamp patterns

A pattern is a list of literal characters and of components, each of which
stands for one part of a date, a time of day or an offset. `Pattern.format`
writes a timestamp by a pattern.
-/

namespace Logbook.Calendar

/-- What fills a number up to its width. -/
inductive Padding where
  | space
  | zero
  | none
  deriving DecidableEq, Repr

/-- How a month is written. -/
inductive MonthStyle where
  | number
  | long
  | short
  deriving DecidableEq, Repr

/-- How a day of the week is written; the last two count from the given day. -/
inductive WeekdayStyle where
  | short
  | long
  | fromSunday
  | fromMonday
  deriving DecidableEq, Repr

/-- Which weeks are counted: those that belong to the year of their Thursday, or
    those since the first Sunday or Monday of the year. -/
inductive WeekStyle where
  | byThursday
  | sinceSunday
  | sinceMonday
  deriving DecidableEq, Repr

/-- Which part of a year is written. -/
inductive YearStyle where
  | full
  | century
  | lastTwo
  deriving DecidableEq, Repr

/-- The unit in which an instant is counted. -/
inductive Precision where
  | second
  | millisecond
  | microsecond
  | nanosecond
  deriving DecidableEq, Repr

/-- A part of a timestamp. `subsecond none` has as many digits as are needed,
    `ignored` and `ending` write nothing. -/
inductive Component where
  | day (padding : Padding)
  | month (style : MonthStyle) (padding : Padding)
  | ordinal (padding : Padding)
  | weekday (style : WeekdayStyle) (fromOne : Bool)
  | weekNumber (style : WeekStyle) (padding : Padding)
  | year (style : YearStyle) (padding : Padding) (ofWeek signed : Bool)
  | hour (twelve : Bool) (padding : Padding)
  | minute (padding : Padding)
  | second (padding : Padding)
  | subsecond (digits : Option Nat)
  | period (upper : Bool)
  | offsetHour (signed : Bool) (padding : Padding)
  | offsetMinute (padding : Padding)
  | offsetSecond (padding : Padding)
  | unixTime (precision : Precision) (signed : Bool)
  | ignored (count : Option Nat)
  | ending
  deriving DecidableEq, Repr

/-- An item of a pattern. -/
inductive Item where
  | literal (c : Char)
  | component (part : Component)
  deriving DecidableEq, Repr

abbrev Pattern := List Item

/-- A number filled up to a width. -/
def Padding.fill (padding : Padding) (width n : Nat) : List Char :=
  match padding with
  | .space => Text.padStart ' ' width (Text.digits n)
  | .zero => Text.zeroPadded width n
  | .none => Text.digits n

/-- The English names of the months. -/
def monthNames : List String :=
  ["January", "February", "March", "April", "May", "June", "July", "August", "September",
    "October", "November", "December"]

/-- The English names of the days of the week. -/
def weekdayNames : List String :=
  ["Monday", "Tuesday", "Wednesday", "Thursday", "Friday", "Saturday", "Sunday"]

/-- A minus sign for a negative number, and for the others a plus sign if one is
    asked for. -/
def signText (negative signed : Bool) : List Char :=
  if negative then ['-'] else if signed then ['+'] else []

/-- The instant in the units of a precision: seconds are cut downward, finer
    units toward zero. -/
def Precision.count (precision : Precision) (t : Timestamp) : Int :=
  let nanoseconds := t.seconds * 1000000000 + t.nanos
  match precision with
  | .second => t.seconds
  | .millisecond => nanoseconds.tdiv 1000000
  | .microsecond => nanoseconds.tdiv 1000
  | .nanosecond => nanoseconds

def Component.format (t : Timestamp) (part : Component) : List Char :=
  let shown := t.localTime
  let date := shown.date
  match part with
  | .day padding => padding.fill 2 date.day
  | .month .number padding => padding.fill 2 date.month
  | .month .long _ => (monthNames.getD (date.month - 1) "").toList
  | .month .short _ => (monthNames.getD (date.month - 1) "").toList.take 3
  | .ordinal padding => padding.fill 3 date.ordinal
  | .weekday .short _ => (weekdayNames.getD shown.weekday "").toList.take 3
  | .weekday .long _ => (weekdayNames.getD shown.weekday "").toList
  | .weekday .fromSunday fromOne =>
    Text.digits ((shown.weekday + 1) % 7 + if fromOne then 1 else 0)
  | .weekday .fromMonday fromOne => Text.digits (shown.weekday + if fromOne then 1 else 0)
  | .weekNumber .byThursday padding => padding.fill 2 (weekOfYear date shown.weekday).2
  | .weekNumber .sinceSunday padding =>
    padding.fill 2 ((date.ordinal + 6 - (shown.weekday + 1) % 7) / 7)
  | .weekNumber .sinceMonday padding => padding.fill 2 ((date.ordinal + 6 - shown.weekday) / 7)
  | .year style padding ofWeek signed =>
    let year := if ofWeek then (weekOfYear date shown.weekday).1 else date.year
    match style with
    | .full => signText (year < 0) signed ++ padding.fill 4 year.natAbs
    | .century => signText (year < 0) signed ++ padding.fill 2 (year.natAbs / 100)
    | .lastTwo => padding.fill 2 (year.natAbs % 100)
  | .hour false padding => padding.fill 2 shown.hour
  | .hour true padding => padding.fill 2 (if shown.hour % 12 = 0 then 12 else shown.hour % 12)
  | .minute padding => padding.fill 2 shown.minute
  | .second padding => padding.fill 2 shown.second
  | .subsecond (some n) => (Text.zeroPadded 9 t.nanos).take n
  | .subsecond none => t.fraction
  | .period upper =>
    if shown.hour < 12 then (if upper then ['A', 'M'] else ['a', 'm'])
    else if upper then ['P', 'M'] else ['p', 'm']
  | .offsetHour signed padding => signText (t.offset < 0) signed ++ padding.fill 2 t.offsetHours
  | .offsetMinute padding => padding.fill 2 t.offsetMinutes
  | .offsetSecond padding => padding.fill 2 t.offsetSeconds
  | .unixTime precision signed =>
    signText (precision.count t < 0) signed ++ Text.digits (precision.count t).natAbs
  | .ignored _ | .ending => []

def Item.format (t : Timestamp) : Item → List Char
  | .literal c => [c]
  | .component part => part.format t

def Pattern.format (pattern : Pattern) (t : Timestamp) : List Char :=
  pattern.flatMap (Item.format t)

end Logbook.Calendar
