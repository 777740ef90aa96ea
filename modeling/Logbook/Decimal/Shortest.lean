import Logbook.Decimal.Binary
import Logbook.Text.Number

/-!
# Shortest decimal digits

The decimal with the fewest digits that reads back as a given floating point
number, and of several with that many digits the one nearest to the number. Two
such decimals may lie equally near; a `Tie` says which of them is taken. The
search goes through ever finer decimal grids. Each grid is tried at the two
points next to the number, so the first grid that has a point in the interval
of numbers that round to the given one yields the answer.
-/

namespace Logbook.Decimal

/-- A positive decimal: its digits, the first of them not zero, and the exponent
    of ten of the first digit. -/
structure Digits where
  digits : List Char
  exponent : Int
  deriving DecidableEq, Repr

/-- Which of two equally near decimals is taken: the larger one, or the one whose
    last digit is even. -/
inductive Tie where
  | up
  | toEven
  deriving DecidableEq, Repr

/-- The one taken of `below` and `below + 1`, which lie equally near. -/
def Tie.choose (tie : Tie) (below : Nat) : Nat :=
  match tie with
  | .up => below + 1
  | .toEven => below + below % 2

/-- The numbers that round to a given one, in units of a common denominator: the
    number itself, the two ends, and whether the ends belong to them. -/
structure Interval where
  low : Nat
  value : Nat
  high : Nat
  denominator : Nat
  closed : Bool

/-- The fraction `num / den` lies in the interval. -/
def Interval.contains (i : Interval) (num den : Nat) : Bool :=
  if i.closed then i.low * den ≤ num * i.denominator && num * i.denominator ≤ i.high * den
  else i.low * den < num * i.denominator && num * i.denominator < i.high * den

/-- The interval of `mantissa * 2 ^ exponent`. Its lower half is only half as
    long where the number below has a smaller last place. -/
def Format.interval (f : Format) (mantissa : Nat) (exponent : Int) : Interval :=
  let (scale, unit) := scaled 1 (exponent - 2)
  let gap := if mantissa = Nat.pow 2 f.fractionBits ∧ f.minExponent < exponent then 1 else 2
  { low := (4 * mantissa - gap) * scale
    value := 4 * mantissa * scale
    high := (4 * mantissa + 2) * scale
    denominator := unit
    closed := mantissa % 2 = 0 }

/-- Ten to the power `p` as a numerator and a denominator. -/
def tenPower (p : Int) : Nat × Nat :=
  match p with
  | .ofNat k => (Nat.pow 10 k, 1)
  | .negSucc k => (1, Nat.pow 10 (k + 1))

/-- The multiple of `10 ^ p` that lies in the interval and nearest to its
    value, if there is one. -/
def Interval.onGrid? (i : Interval) (tie : Tie) (p : Int) : Option Nat :=
  let (num, den) := tenPower p
  let below := i.value * den / (i.denominator * num)
  let above := below + 1
  let twice := 2 * (i.value * den)
  let middle := (below + above) * (i.denominator * num)
  match i.contains (below * num) den, i.contains (above * num) den with
  | true, true =>
    some (if twice < middle then below else if middle < twice then above else tie.choose below)
  | true, false => some below
  | false, true => some above
  | false, false => none

/-- The first multiple found on the grids `10 ^ p`, `10 ^ (p - 1)` and so on,
    with its grid; after `fuel` grids the whole part of the value on the last
    one. -/
def Interval.search (i : Interval) (tie : Tie) : Nat → Int → Nat × Int
  | 0, p => (i.value * (tenPower p).2 / (i.denominator * (tenPower p).1), p)
  | fuel + 1, p =>
    match i.onGrid? tie p with
    | some n => (n, p)
    | none => i.search tie fuel (p - 1)

/-- The digits without the zeros at their end. -/
def dropTrailingZeros (ds : List Char) : List Char := (ds.reverse.dropWhile (· = '0')).reverse

/-- The decimal `n * 10 ^ p`. -/
def Digits.ofScaled (n : Nat) (p : Int) : Digits :=
  let ds := Text.digits n
  ⟨dropTrailingZeros ds, p + (ds.length - 1 : Nat)⟩

/-- The shortest decimal that reads back as `mantissa * 2 ^ exponent`, for a
    mantissa other than zero. The first grid lies above the number: two to the
    `k` is less than ten to the `k * 30103 / 100000 + 1`. -/
def Format.shortest (f : Format) (tie : Tie) (mantissa : Nat) (exponent : Int) : Digits :=
  let start := (mantissa.log2 + exponent) * 30103 / 100000 + 2
  let (n, p) := (f.interval mantissa exponent).search tie 22 start
  Digits.ofScaled n p

end Logbook.Decimal
