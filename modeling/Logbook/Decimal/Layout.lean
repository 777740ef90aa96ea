import Logbook.Decimal.Shortest

/-!
# Written forms of decimals

The positional form of a decimal, with the point among its digits, and the
scientific form, with the point behind the first digit and the exponent after
the letter `e`.
-/

namespace Logbook.Decimal

/-- The positional form. A whole number ends with `wholeSuffix`. -/
def Digits.positional (d : Digits) (wholeSuffix : List Char) : List Char :=
  match d.exponent with
  | .negSucc k => '0' :: '.' :: List.replicate k '0' ++ d.digits
  | .ofNat k =>
    if d.digits.length ≤ k + 1 then
      d.digits ++ List.replicate (k + 1 - d.digits.length) '0' ++ wholeSuffix
    else d.digits.take (k + 1) ++ '.' :: d.digits.drop (k + 1)

/-- The scientific form. The exponent always carries its sign. -/
def Digits.scientific (d : Digits) : List Char :=
  let significand :=
    match d.digits with
    | first :: second :: rest => first :: '.' :: second :: rest
    | ds => ds
  let exponent :=
    match d.exponent with
    | .negSucc k => '-' :: Text.digits (k + 1)
    | .ofNat k => '+' :: Text.digits k
  significand ++ 'e' :: exponent

/-- A minus sign before the text of a negative number. -/
def signed (negative : Bool) (cs : List Char) : List Char :=
  if negative then '-' :: cs else cs

/-- The plain text of a number: positional, with no fraction on a whole number,
    `NaN`, and `inf` for infinity. Of two equally near decimals it is the larger
    one. -/
def Format.plain (f : Format) (w : Nat) : List Char :=
  match f.decode w with
  | .nan => ['N', 'a', 'N']
  | .infinite negative => signed negative ['i', 'n', 'f']
  | .finite negative mantissa exponent =>
    signed negative <|
      if mantissa = 0 then ['0'] else (f.shortest .up mantissa exponent).positional []

/-- The plain text with a plus sign before numbers that have no minus sign. -/
def Format.plainSigned (f : Format) (w : Nat) : List Char :=
  match f.decode w with
  | .nan => f.plain w
  | .infinite negative | .finite negative _ _ => if negative then f.plain w else '+' :: f.plain w

end Logbook.Decimal
