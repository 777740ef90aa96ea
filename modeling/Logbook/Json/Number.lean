import Logbook.Json.Value
import Logbook.Decimal.Binary
import Logbook.Text.Number

/-!
# Numbers in JSON texts

The value of a JSON number from its parts. A number without fraction and
exponent is whole as long as it fits into sixty-four bits; every other number
is a double. A double is found in one rounding step from its leading digits and
a power of ten: digits that would carry the significand beyond sixty-four bits
are not taken into account, but those before the point still count as places.
-/

namespace Logbook.Json

/-- The parts of a JSON number: its sign, the digits before the point, the
    digits behind it if there is one, and the exponent if there is one. -/
structure NumberParts where
  negative : Bool
  whole : List Char
  fraction : Option (List Char)
  exponent : Option Int
  deriving Repr

/-- The largest significand. -/
def maxSignificand : Nat := UInt64.size - 1

/-- Appends digits to a significand until one would carry it beyond the largest;
    yields the significand and the number of digits taken. -/
def appendDigits (significand : Nat) : List Char → Nat × Nat
  | [] => (significand, 0)
  | c :: cs =>
    let next := 10 * significand + Text.digitValue c
    if next ≤ maxSignificand then
      let (last, taken) := appendDigits next cs
      (last, taken + 1)
    else (significand, 0)

/-- The double nearest to the quotient of two doubles, neither of them negative. -/
def divideDoubles (a b : Nat) : Nat :=
  match Decimal.Format.double.decode a, Decimal.Format.double.decode b with
  | .finite _ m e, .finite _ n k =>
    let (num, den) := Decimal.scaled m (e - k)
    Decimal.Format.double.nearest num (den * n)
  | _, _ => 0

/-- The double nearest to the product of two doubles, neither of them negative. -/
def multiplyDoubles (a b : Nat) : Nat :=
  match Decimal.Format.double.decode a, Decimal.Format.double.decode b with
  | .finite _ m e, .finite _ n k =>
    let (num, den) := Decimal.scaled (m * n) (e + k)
    Decimal.Format.double.nearest num den
  | _, _ => 0

def powerOfTen (k : Nat) : Nat := Decimal.Format.double.nearest (Nat.pow 10 k) 1

/-- The largest power of ten that is a double. -/
def maxPower : Nat := 308

/-- A double divided by `10 ^ k`, in steps of at most the largest power. -/
def divideByTen (w k : Nat) : Nat :=
  if k ≤ maxPower then divideDoubles w (powerOfTen k)
  else if w = 0 then 0
  else divideByTen (divideDoubles w (powerOfTen maxPower)) (k - maxPower)
  termination_by k
  decreasing_by simp_all [maxPower]; omega

/-- The double for `significand * 10 ^ exponent`, or `none` if it lies beyond the
    largest double. -/
def scaledDouble? (significand : Nat) (exponent : Int) : Option Nat :=
  let w := Decimal.Format.double.nearest significand 1
  match exponent with
  | .negSucc k => some (divideByTen w (k + 1))
  | .ofNat k =>
    if k ≤ maxPower then
      let product := multiplyDoubles w (powerOfTen k)
      if product = Decimal.Format.double.infinity then none else some product
    else if w = 0 then some 0
    else none

/-- The number, or `none` if it lies beyond the largest double. -/
def NumberParts.value? (parts : NumberParts) : Option Json :=
  let (significand, taken) := appendDigits 0 parts.whole
  let rounded (w : Nat) : Json :=
    .double (.ofNat (w + if parts.negative then Decimal.Format.double.signBit else 0))
  let isWhole := parts.fraction = none ∧ parts.exponent = none ∧ taken = parts.whole.length
  if isWhole ∧ parts.negative = false then some (.integer significand)
  else if isWhole ∧ 0 < significand ∧ Int64.minValue.toInt ≤ -significand then
    some (.integer (-significand))
  else
    let (significand, places) := appendDigits significand (parts.fraction.getD [])
    let exponent : Int := (parts.whole.length - taken : Nat) - places + parts.exponent.getD 0
    (scaledDouble? significand exponent).map rounded

end Logbook.Json
