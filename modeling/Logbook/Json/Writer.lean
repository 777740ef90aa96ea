import Logbook.Json.Value
import Logbook.Decimal.Layout

/-!
# Written JSON

The compact text of a value, with no blank between its parts. In a text the
quote, the backslash and the control characters are escaped and nothing else
is. A floating point number has the fewest digits that read back, the last of
them even where two decimals lie equally near; one that is no finite number is
written as null.
-/

namespace Logbook.Json

/-- How the numbers of one precision are written: positionally where the first
    digit's exponent of ten lies between the two bounds, else scientifically. -/
structure NumberStyle where
  format : Decimal.Format
  lowest : Int
  highest : Int

/-- Single precision numbers are positional from a millionth up to thirteen
    digits before the point. -/
def singleStyle : NumberStyle := ⟨.single, -6, 12⟩

/-- Double precision numbers are positional from a hundred-thousandth up to
    sixteen digits before the point. -/
def doubleStyle : NumberStyle := ⟨.double, -5, 15⟩

/-- The text of the floating point number of the word `w`. A positional number
    always has a fraction. -/
def NumberStyle.chars (style : NumberStyle) (w : Nat) : List Char :=
  match style.format.decode w with
  | .nan | .infinite _ => ['n', 'u', 'l', 'l']
  | .finite negative mantissa exponent =>
    Decimal.signed negative <|
      if mantissa = 0 then ['0', '.', '0']
      else
        let d := style.format.shortest .toEven mantissa exponent
        if style.lowest ≤ d.exponent ∧ d.exponent ≤ style.highest then d.positional ['.', '0']
        else d.scientific

/-- The text of a whole number. -/
def integerChars : Int → List Char
  | .ofNat n => Text.digits n
  | .negSucc n => '-' :: Text.digits (n + 1)

/-- A digit of the hexadecimal system. -/
def hexDigit (n : Nat) : Char := Nat.digitChar n

/-- The characters that stand for `c` inside quotes. -/
def escapedChar (c : Char) : List Char :=
  if c = '"' then ['\\', '"']
  else if c = '\\' then ['\\', '\\']
  else if c = '\x08' then ['\\', 'b']
  else if c = '\x0c' then ['\\', 'f']
  else if c = '\n' then ['\\', 'n']
  else if c = '\r' then ['\\', 'r']
  else if c = '\t' then ['\\', 't']
  else if c.toNat < 0x20 then
    ['\\', 'u', '0', '0', hexDigit (c.toNat / 16), hexDigit (c.toNat % 16)]
  else [c]

/-- A text between quotes. -/
def textChars (s : String) : List Char := '"' :: s.toList.flatMap escapedChar ++ ['"']

mutual

/-- The characters of a written value. -/
def chars : Json → List Char
  | .null => ['n', 'u', 'l', 'l']
  | .bool true => ['t', 'r', 'u', 'e']
  | .bool false => ['f', 'a', 'l', 's', 'e']
  | .integer n => integerChars n
  | .single w => singleStyle.chars w.toNat
  | .double w => doubleStyle.chars w.toNat
  | .text s => textChars s
  | .array [] => ['[', ']']
  | .array (element :: rest) => '[' :: chars element ++ elementsChars rest ++ [']']
  | .object [] => ['\x7b', '\x7d']
  | .object ((name, value) :: rest) =>
    '\x7b' :: textChars name ++ ':' :: chars value ++ membersChars rest ++ ['\x7d']

/-- The characters of the further elements of an array, a comma before each. -/
def elementsChars : List Json → List Char
  | [] => []
  | element :: rest => ',' :: chars element ++ elementsChars rest

/-- The characters of the further members of an object, a comma before each. -/
def membersChars : List (String × Json) → List Char
  | [] => []
  | (name, value) :: rest => ',' :: textChars name ++ ':' :: chars value ++ membersChars rest

end

/-- The written value. -/
def write (value : Json) : String := String.ofList value.chars

end Logbook.Json
