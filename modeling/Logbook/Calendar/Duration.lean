import Logbook.Text.Number

/-!
# Durations

A length of time in seconds and nanoseconds, and its text in the largest unit of
which it has at least one.
-/

namespace Logbook.Calendar

/-- A length of time. The nanoseconds stay below a second. -/
structure Duration where
  seconds : Nat
  nanos : Nat
  deriving DecidableEq, Repr

namespace Duration

/-- The length is zero. -/
def isZero (d : Duration) : Bool := d.seconds = 0 && d.nanos = 0

/-- A whole number of a unit and the fraction behind it, given by its digits up
    to `width`, of which the zeros at the end are left out. -/
def decimal (whole fraction width : Nat) : List Char :=
  match ((Text.zeroPadded width fraction).reverse.dropWhile (· = '0')).reverse with
  | [] => Text.digits whole
  | ds => Text.digits whole ++ '.' :: ds

/-- The length in seconds, milliseconds, microseconds or nanoseconds. -/
def text (d : Duration) : List Char :=
  if 0 < d.seconds then decimal d.seconds d.nanos 9 ++ ['s']
  else if 1000000 ≤ d.nanos then decimal (d.nanos / 1000000) (d.nanos % 1000000) 6 ++ ['m', 's']
  else if 1000 ≤ d.nanos then decimal (d.nanos / 1000) (d.nanos % 1000) 3 ++ ['µ', 's']
  else Text.digits d.nanos ++ ['n', 's']

end Duration

end Logbook.Calendar
