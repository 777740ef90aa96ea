import Logbook.Template.Palette
import Logbook.Text.Blank
import Logbook.Text.Number

/-!
# Colors of the terminal

A color specification is a list of modifiers such as `bold` or `fg:#ff8800`. It
is compiled into one control sequence, which sets the attributes of the text
that follows it. A specification is taken as a whole: one modifier that cannot
be read makes the whole specification an error, and so does an empty list.
-/

namespace Logbook

/-- A modifier that is none. -/
structure ColorError where
  token : String
  deriving DecidableEq, Repr

def ColorError.message (e : ColorError) : String := "invalid color token `" ++ e.token ++ "`"

/-- A color of the text or of its background: the terminal's own one, or an entry
    of the palette. -/
inductive Color where
  | standard
  | indexed (index : Nat)
  deriving DecidableEq, Repr

namespace Color

/-- The value of a hexadecimal digit in lower case. -/
def hexDigit? (c : Char) : Option Nat :=
  if c.isDigit then some (Text.digitValue c)
  else if 'a' ≤ c ∧ c ≤ 'f' then some (c.toNat - 'a'.toNat + 10)
  else none

/-- The color of three, four, six or eight hexadecimal digits, of which one or
    two belong to a channel. A fourth channel is left out. -/
def ofHex? (cs : List Char) : Option Palette.Rgb := do
  match ← cs.mapM hexDigit? with
  | [r, g, b] | [r, g, b, _] => some ⟨.ofNat (17 * r), .ofNat (17 * g), .ofNat (17 * b)⟩
  | [r, r', g, g', b, b'] | [r, r', g, g', b, b', _, _] =>
    some ⟨.ofNat (16 * r + r'), .ofNat (16 * g + g'), .ofNat (16 * b + b')⟩
  | _ => none

/-- A channel in decimal, with blanks around it. -/
def channel? (cs : List Char) : Option UInt8 :=
  (Text.readUnsigned? 256 (Text.trim cs)).map .ofNat

/-- The color of three or four channels, which commas separate. A fourth channel
    is read and left out. -/
def ofChannels? (cs : List Char) : Option Palette.Rgb := do
  match ← (Text.splitAll ',' cs).mapM channel? with
  | [red, green, blue] | [red, green, blue, _] => some ⟨red, green, blue⟩
  | _ => none

/-- The text between `opening` and a closing parenthesis. -/
def enclosed? (opening : String) (cs : List Char) : Option (List Char) := do
  let rest ← opening.toList.isPrefixOf? cs
  if rest.getLast? = some ')' then some rest.dropLast else none

def nearest (color : Palette.Rgb) : Color := .indexed (Palette.nearestEntry color)

/-- The color of a text without capitals and blanks around it. -/
def read? (cs : List Char) : Option Color :=
  if cs = ['-', '1'] then some .standard
  else if cs.head? = some '#' then (ofHex? cs.tail).map nearest
  else
    match (enclosed? "rgba(" cs).or (enclosed? "rgb(" cs) with
    | some inner => (ofChannels? inner).map nearest
    | none =>
      if ',' ∈ cs then (ofChannels? cs).map nearest
      else
        match Text.readDigits? cs with
        | some n => if n < 256 then some (.indexed n) else none
        | none => (Palette.namedIndex? (String.ofList cs)).map .indexed

end Color

/-- A change of the attributes of text. -/
inductive Modifier where
  | bold
  | italic
  | underline
  | noBold
  | noItalic
  | noUnderline
  | reset
  | foreground (color : Color)
  | background (color : Color)
  deriving DecidableEq, Repr

namespace Modifier

/-- The modifiers without an argument, by their names. -/
def plain : List (String × Modifier) :=
  [("bold", bold), ("italic", italic), ("underline", underline), ("nobold", noBold),
    ("noitalic", noItalic), ("nounderline", noUnderline), ("reset", reset)]

/-- The modifier of a text, in any case of letters and with blanks around it. -/
def read? (cs : List Char) : Option Modifier :=
  let lowered := (Text.trim cs).map Char.toLower
  match plain.lookup (String.ofList lowered) with
  | some modifier => some modifier
  | none =>
    match "fg:".toList.isPrefixOf? lowered, "bg:".toList.isPrefixOf? lowered with
    | some color, _ => (Color.read? (Text.trim color)).map foreground
    | none, some color => (Color.read? (Text.trim color)).map background
    | none, none => none

/-- The numbers that stand for a modifier in a control sequence. -/
def codes : Modifier → List Nat
  | bold => [1]
  | italic => [3]
  | underline => [4]
  | noBold => [22]
  | noItalic => [23]
  | noUnderline => [24]
  | reset => [0]
  | foreground .standard => [39]
  | foreground (.indexed index) => [38, 5, index]
  | background .standard => [49]
  | background (.indexed index) => [48, 5, index]

end Modifier

namespace Color

/-- The control sequence of some numbers. -/
def sequence (codes : List Nat) : String :=
  "\x1b[" ++ Text.join ";" (codes.map fun n => String.ofList (Text.digits n)) ++ "m"

/-- The modifiers of a list of texts, or the first text that is none. -/
def readModifiers : List (List Char) → Except ColorError (List Modifier)
  | [] => .ok []
  | token :: rest => do
    match Modifier.read? token with
    | some modifier => return modifier :: (← readModifiers rest)
    | none => .error ⟨String.ofList token⟩

/-- The control sequence of a list of modifiers. -/
def compile (tokens : List (List Char)) : Except ColorError String := do
  match ← readModifiers tokens with
  | [] => .error ⟨""⟩
  | modifiers => .ok (sequence (modifiers.flatMap Modifier.codes))

/-- The control sequence of a specification, in which slashes separate the
    modifiers. -/
def compileText (spec : String) : Except ColorError String :=
  compile (Text.splitAll '/' spec.toList)

end Color

end Logbook
