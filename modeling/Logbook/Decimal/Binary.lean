/-!
# Binary floating point by its bits

A floating point number is kept as the word of bits that stands for it, so that
equality is equality of bits and every statement about a number is one about
natural numbers. `Format.decode` gives the number that a word stands for and
`Format.nearest` the word of the number that lies nearest to a fraction, with
ties to the even significand.
-/

namespace Logbook.Decimal

/-- A binary interchange format: the widths of its fraction and exponent
    fields. -/
structure Format where
  fractionBits : Nat
  exponentBits : Nat

namespace Format

/-- Single precision. -/
def single : Format := ⟨23, 8⟩

/-- Double precision. -/
def double : Format := ⟨52, 11⟩

variable (f : Format)

/-- The exponent of two that belongs to the last place of the smallest
    numbers. -/
def minExponent : Int := 2 - (Nat.pow 2 (f.exponentBits - 1) : Nat) - f.fractionBits

/-- The largest value of the exponent field, which infinities and values that
    are not numbers carry. -/
def specialExponent : Nat := Nat.pow 2 f.exponentBits - 1

/-- The word of positive infinity. -/
def infinity : Nat := f.specialExponent * Nat.pow 2 f.fractionBits

end Format

/-- What a word stands for: a signed multiple of a power of two, an infinity, or
    no number at all. -/
inductive Datum where
  | finite (negative : Bool) (mantissa : Nat) (exponent : Int)
  | infinite (negative : Bool)
  | nan
  deriving DecidableEq, Repr

/-- The fraction `m * 2 ^ e` as a numerator and a denominator. -/
def scaled (m : Nat) (e : Int) : Nat × Nat :=
  match e with
  | .ofNat k => (m * Nat.pow 2 k, 1)
  | .negSucc k => (m, Nat.pow 2 (k + 1))

/-- The integer nearest to `num / den`, the even one of two that are equally
    near. -/
def roundHalfEven (num den : Nat) : Nat :=
  let quotient := num / den
  let twice := 2 * (num % den)
  if twice < den ∨ (twice = den ∧ quotient % 2 = 0) then quotient else quotient + 1

namespace Format

variable (f : Format)

/-- The value of the word `w`. -/
def decode (w : Nat) : Datum :=
  let fraction := w % Nat.pow 2 f.fractionBits
  let exponent := w / Nat.pow 2 f.fractionBits % Nat.pow 2 f.exponentBits
  let negative := w / Nat.pow 2 (f.fractionBits + f.exponentBits) % 2 = 1
  if exponent = f.specialExponent then
    if fraction = 0 then .infinite negative else .nan
  else if exponent = 0 then .finite negative fraction f.minExponent
  else .finite negative (Nat.pow 2 f.fractionBits + fraction) (f.minExponent + exponent - 1)

/-- The exponent of the last place of the number nearest to `num / den`, unless
    rounding carries it into the next. -/
def lastPlace (num den : Nat) : Int :=
  let guess : Int := max f.minExponent (num.log2 - den.log2 - f.fractionBits - 1 : Int)
  let (scale, unit) := scaled 1 guess
  if num * unit / (den * scale) < Nat.pow 2 (f.fractionBits + 1) then guess else guess + 1

/-- The word of the number nearest to `num / den`, the one with an even
    significand of two that are equally near, and the word of infinity where
    that number lies beyond the largest one. -/
def nearest (num den : Nat) : Nat :=
  if num = 0 then 0
  else
    let place := f.lastPlace num den
    let (scale, unit) := scaled 1 place
    let mantissa := roundHalfEven (num * unit) (den * scale)
    min f.infinity ((place - f.minExponent).toNat * Nat.pow 2 f.fractionBits + mantissa)

def signBit : Nat := Nat.pow 2 (f.fractionBits + f.exponentBits)

end Format

/-- The double precision word of the same number as a single precision word. -/
def widen (w : UInt32) : UInt64 :=
  let sign (negative : Bool) : Nat := if negative then Format.double.signBit else 0
  match Format.single.decode w.toNat with
  | .finite negative mantissa exponent =>
    let (num, den) := scaled mantissa exponent
    .ofNat (sign negative + Format.double.nearest num den)
  | .infinite negative => .ofNat (sign negative + Format.double.infinity)
  | .nan => .ofNat (Format.double.infinity + 1)

end Logbook.Decimal
