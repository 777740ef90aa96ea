import Logbook.Text.Hidden

/-!
# Quoted texts

A text between double quotes, as diagnostics show it. A quote and a backslash
are written behind a backslash, the null character, tab, line feed and carriage
return by their letters, and every other hidden character by its code point.
-/

namespace Logbook.Text

/-- The characters that stand for `c` between quotes. -/
def quotedChar (c : Char) : List Char :=
  if c = '\x00' then ['\\', '0']
  else if c = '\t' then ['\\', 't']
  else if c = '\n' then ['\\', 'n']
  else if c = '\r' then ['\\', 'r']
  else if c = '"' then ['\\', '"']
  else if c = '\\' then ['\\', '\\']
  else if isHidden c then ['\\', 'u', '\x7b'] ++ Nat.toDigits 16 c.toNat ++ ['\x7d']
  else [c]

/-- The text between double quotes. -/
def quoted (s : String) : String :=
  String.ofList ('"' :: s.toList.flatMap quotedChar ++ ['"'])

end Logbook.Text
