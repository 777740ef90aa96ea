import Logbook.Calendar.Date
import Logbook.Text.Number

/-!
# Timestamps

An instant together with the offset of the clock that shows it. The instant
alone decides `Timestamp.isEpoch` and the seconds; the offset only changes the
local clock, `Timestamp.localTime`. `rfc3339?` is the internet format, which cannot
show every timestamp, and `text` falls back to the seconds where it does not.
-/

namespace Logbook.Calendar

/-- An instant, by its seconds since the beginning of 1970 and the nanoseconds
    behind them, and the offset of the local clock from universal time in
    seconds. -/
structure Timestamp where
  seconds : Int
  nanos : Nat
  offset : Int
  deriving DecidableEq, Repr, Inhabited

/-- What a local clock and calendar show. The weekday counts from zero for
    Monday. -/
structure LocalTime where
  date : Date
  weekday : Nat
  hour : Nat
  minute : Nat
  second : Nat
  deriving DecidableEq, Repr

namespace Timestamp

/-- The instant is the beginning of 1970. -/
def isEpoch (t : Timestamp) : Bool := t.seconds = 0 && t.nanos = 0

/-- The local clock and calendar. -/
def localTime (t : Timestamp) : LocalTime :=
  let shown := t.seconds + t.offset
  let dayNumber := shown / 86400
  let secondOfDay := (shown % 86400).toNat
  { date := Date.ofDayNumber dayNumber
    weekday := weekdayOfDayNumber dayNumber
    hour := secondOfDay / 3600
    minute := secondOfDay / 60 % 60
    second := secondOfDay % 60 }

/-- The same instant on the clock of universal time. At the two ends of the years
    that dates can have, the date of a local clock may exist where that of universal
    time does not, and then there is none. -/
def toUtc? (t : Timestamp) : Option Timestamp :=
  let universal := { t with offset := 0 }
  if universal.localTime.date.isSupported then some universal else none

def integerText (n : Int) : List Char :=
  if n < 0 then '-' :: Text.digits n.natAbs else Text.digits n.natAbs

/-- The whole seconds since the beginning of 1970. -/
def secondsText (t : Timestamp) : List Char := integerText t.seconds

/-- The nanoseconds as the digits of a fraction without zeros at their end; a
    zero alone where there are none. -/
def fraction (t : Timestamp) : List Char :=
  match ((Text.zeroPadded 9 t.nanos).reverse.dropWhile (· = '0')).reverse with
  | [] => ['0']
  | ds => ds

/-- The hours of the offset without its sign. -/
def offsetHours (t : Timestamp) : Nat := t.offset.natAbs / 3600

/-- The minutes of the offset behind its hours, without its sign. -/
def offsetMinutes (t : Timestamp) : Nat := t.offset.natAbs / 60 % 60

/-- The seconds of the offset behind its minutes, without its sign. -/
def offsetSeconds (t : Timestamp) : Nat := t.offset.natAbs % 60

/-- The internet format: date and time with the fraction that is needed, and the
    offset, which is a letter for universal time. It shows years from 0 to 9999
    and offsets of whole minutes below twenty-four hours. -/
def rfc3339? (t : Timestamp) : Option (List Char) :=
  let shown := t.localTime
  if shown.date.year < 0 ∨ 10000 ≤ shown.date.year ∨ 23 < t.offsetHours ∨ t.offsetSeconds ≠ 0 then
    none
  else
    let fraction := if t.nanos = 0 then [] else '.' :: t.fraction
    let zone :=
      if t.offset = 0 then ['Z']
      else (if t.offset < 0 then '-' else '+') :: Text.zeroPadded 2 t.offsetHours ++
        ':' :: Text.zeroPadded 2 t.offsetMinutes
    some <| Text.zeroPadded 4 shown.date.year.toNat ++ '-' :: Text.zeroPadded 2 shown.date.month ++
      '-' :: Text.zeroPadded 2 shown.date.day ++ 'T' :: Text.zeroPadded 2 shown.hour ++
      ':' :: Text.zeroPadded 2 shown.minute ++ ':' :: Text.zeroPadded 2 shown.second ++
      fraction ++ zone

/-- The internet format, or the seconds where it does not exist. -/
def text (t : Timestamp) : List Char := t.rfc3339?.getD t.secondsText

end Timestamp

end Logbook.Calendar
