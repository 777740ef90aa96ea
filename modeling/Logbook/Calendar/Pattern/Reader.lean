import Logbook.Calendar.Pattern.Basic
import Logbook.Text.Blank
import Logbook.Text.Split

/-!
# Reading timestamp patterns

A component stands between brackets: its name, and after it modifiers of the
form `key:value`, all of them separated by blanks. Upper and lower case do not
matter, and of two modifiers with one key the later decides. Two opening
brackets in a row are a literal bracket, and a closing bracket that closes
nothing is literal too. Two special names hold nested patterns, each between
brackets of its own: `optional` holds one, which has to be written, and `first`
any number of alternatives, of which the first is written. Behind the name and
its blanks every single bracket opens a nested pattern, and inside of it
everything between its components is literal.

A bracket takes nested patterns until one of them fails, and goes on behind the
character where that one failed. So a failed reading has a rest as well: a
`Reading` is what was read, if the text is right, with the place behind it. The
place counts the open brackets, and the ones that failed without their closing
bracket stay open. Nested patterns and the brackets around them alternate, so a
closing bracket closes a nested pattern only where the number of brackets that
stayed open inside of it is even.
-/

namespace Logbook.Calendar.Pattern

/-- A place in a text: the text behind it, and how many brackets count as open
    there. -/
structure Place where
  text : List Char
  depth : Nat
  deriving DecidableEq, Repr

/-- What was read at a place, or nothing where the text is wrong, and the place
    behind it or behind its fault. -/
abbrev Reading (α : Type) := Option α × Place

/-- How many brackets may be open at a time. -/
def maxDepth : Nat := 255

/-- The text without the blanks at its front. -/
def dropBlanks (cs : List Char) : List Char := cs.dropWhile Text.isAsciiBlank

/-- The characters up to the next blank, bracket or backslash, and what follows. -/
def splitWord (cs : List Char) : List Char × List Char :=
  cs.span fun c => ¬ Text.isAsciiBlank c ∧ c ≠ '[' ∧ c ≠ ']' ∧ c ≠ '\\'

/-- The text in lower case. -/
def lower (cs : List Char) : String := String.ofList (cs.map Char.toLower)

/-- A choice between named values. -/
def choose (choices : List (String × α)) (value : String) : Option α := choices.lookup value

/-- The names of paddings. -/
def paddings : List (String × Padding) := [("space", .space), ("zero", .zero), ("none", .none)]

/-- The names of the two answers. -/
def answers : List (String × Bool) := [("true", true), ("false", false)]

/-- The names of the sign behaviours. -/
def signs : List (String × Bool) := [("automatic", false), ("mandatory", true)]

/-- The component of a name, with what holds where no modifier says otherwise. -/
def plain? (name : String) : Option Component :=
  choose
    [("day", .day .zero), ("month", .month .number .zero), ("ordinal", .ordinal .zero),
      ("weekday", .weekday .long true), ("week_number", .weekNumber .byThursday .zero),
      ("year", .year .full .zero false false), ("hour", .hour false .zero),
      ("minute", .minute .zero), ("second", .second .zero), ("subsecond", .subsecond none),
      ("period", .period true), ("offset_hour", .offsetHour false .zero),
      ("offset_minute", .offsetMinute .zero), ("offset_second", .offsetSecond .zero),
      ("unix_timestamp", .unixTime .second false), ("ignore", .ignored none), ("end", .ending)]
    name

/-- The component with one modifier applied, if it has such a modifier and the
    modifier such a value. -/
def modify? (part : Component) (key value : String) : Option Component :=
  match part, key with
  | .day _, "padding" => (choose paddings value).map .day
  | .month style _, "padding" => (choose paddings value).map (.month style)
  | .month _ padding, "repr" =>
    (choose [("numerical", .number), ("long", .long), ("short", .short)] value).map
      (.month · padding)
  | .month style padding, "case_sensitive" =>
    (choose answers value).map fun _ => .month style padding
  | .ordinal _, "padding" => (choose paddings value).map .ordinal
  | .weekday _ fromOne, "repr" =>
    (choose [("short", .short), ("long", .long), ("sunday", .fromSunday), ("monday", .fromMonday)]
      value).map (.weekday · fromOne)
  | .weekday style _, "one_indexed" => (choose answers value).map (.weekday style)
  | .weekday style fromOne, "case_sensitive" =>
    (choose answers value).map fun _ => .weekday style fromOne
  | .weekNumber style _, "padding" => (choose paddings value).map (.weekNumber style)
  | .weekNumber _ padding, "repr" =>
    (choose [("iso", .byThursday), ("sunday", .sinceSunday), ("monday", .sinceMonday)] value).map
      (.weekNumber · padding)
  | .year style _ ofWeek signed, "padding" =>
    (choose paddings value).map (.year style · ofWeek signed)
  | .year _ padding ofWeek signed, "repr" =>
    (choose [("full", .full), ("century", .century), ("last_two", .lastTwo)] value).map
      (.year · padding ofWeek signed)
  | .year style padding _ signed, "base" =>
    (choose [("calendar", false), ("iso_week", true)] value).map (.year style padding · signed)
  | .year style padding ofWeek _, "sign" =>
    (choose signs value).map (.year style padding ofWeek)
  | .year style padding ofWeek signed, "range" =>
    (choose [("standard", ()), ("extended", ())] value).map fun _ =>
      .year style padding ofWeek signed
  | .hour twelve _, "padding" => (choose paddings value).map (.hour twelve)
  | .hour _ padding, "repr" => (choose [("12", true), ("24", false)] value).map (.hour · padding)
  | .minute _, "padding" => (choose paddings value).map .minute
  | .second _, "padding" => (choose paddings value).map .second
  | .subsecond _, "digits" =>
    (choose [("1", some 1), ("2", some 2), ("3", some 3), ("4", some 4), ("5", some 5),
      ("6", some 6), ("7", some 7), ("8", some 8), ("9", some 9), ("1+", none)] value).map
      .subsecond
  | .period _, "case" => (choose [("lower", false), ("upper", true)] value).map .period
  | .period upper, "case_sensitive" => (choose answers value).map fun _ => .period upper
  | .offsetHour _ padding, "sign" => (choose signs value).map (.offsetHour · padding)
  | .offsetHour signed _, "padding" => (choose paddings value).map (.offsetHour signed)
  | .offsetMinute _, "padding" => (choose paddings value).map .offsetMinute
  | .offsetSecond _, "padding" => (choose paddings value).map .offsetSecond
  | .unixTime _ signed, "precision" =>
    (choose [("second", .second), ("millisecond", .millisecond), ("microsecond", .microsecond),
      ("nanosecond", .nanosecond)] value).map (.unixTime · signed)
  | .unixTime precision _, "sign" => (choose signs value).map (.unixTime precision)
  | .ignored _, "count" =>
    ((Text.readUnsigned? 65536 value.toList).filter (0 < ·)).map fun n => .ignored (some n)
  | .ending, "trailing_input" =>
    (choose [("prohibit", ()), ("discard", ())] value).map fun _ => .ending
  | _, _ => none

/-- The key and the value of a modifier `key:value`, neither of them empty. -/
def modifier? (word : List Char) : Option (String × String) := do
  let (key, value) ← Text.splitFirst ':' word
  if key.isEmpty || value.isEmpty then none else some (lower key, lower value)

/-- The modifiers at the front of a text, each behind blanks, up to a character
    that no word holds, or nothing where one of them has a wrong form, and what
    follows. Every step but the last takes a modifier, so one step more than there
    are characters is enough. -/
def readModifiers : Nat → List Char → Option (List (String × String)) × List Char
  | 0, cs => (none, cs)
  | fuel + 1, cs =>
    match splitWord (dropBlanks cs) with
    | ([], _) => (some [], cs)
    | (word, rest) =>
      match modifier? word with
      | none => (none, rest)
      | some modifier =>
        let (modifiers, rest) := readModifiers fuel rest
        (modifiers.map (modifier :: ·), rest)

/-- What stands between an opening bracket and its closing one: a name, modifiers
    and nested patterns, and whether a blank stands before the first of these. -/
structure Bracket where
  name : String
  modifiers : List (String × String)
  spaced : Bool
  nested : List Pattern

/-- Whether an optional pattern is written, by its modifiers. -/
def optionalShown? (modifiers : List (String × String)) : Option Bool :=
  modifiers.foldlM (fun _ (key, value) => if key = "format" then choose answers value else none)
    true

def component? (name : String) (modifiers : List (String × String)) : Option Component := do
  let part ← modifiers.foldlM (fun part (key, value) => modify? part key value) (← plain? name)
  if part = .ignored none then none else some part

/-- The items that a bracket stands for. An optional pattern that is not to be
    written has no meaning. -/
def Bracket.items? (bracket : Bracket) : Option Pattern :=
  if ¬ bracket.nested.isEmpty ∧ ¬ bracket.spaced then none
  else if bracket.name = "optional" then
    match bracket.nested with
    | [inner] => if optionalShown? bracket.modifiers = some true then some inner else none
    | _ => none
  else if bracket.name = "first" then
    if bracket.modifiers.isEmpty then some (bracket.nested.headD []) else none
  else if bracket.nested.isEmpty then
    (component? bracket.name bracket.modifiers).map fun part => [.component part]
  else none

/-- A reading of further items behind those that are read already. -/
def Reading.after (items : Pattern) (reading : Reading Pattern) : Reading Pattern :=
  (reading.1.map (items ++ ·), reading.2)

mutual

/-- The items up to the end or, in a nested pattern, up to its closing bracket,
    where `level?` is the number of open brackets at its beginning. Every step
    takes a character, so one step more than there are characters is enough. -/
def readItems : Nat → Option Nat → Place → Reading Pattern
  | 0, _, place => (none, place)
  | fuel + 1, level?, place =>
    match place.text with
    | [] => (some [], place)
    | '[' :: '[' :: cs => .after [.literal '['] (readItems fuel level? ⟨cs, place.depth⟩)
    | '[' :: cs =>
      if place.depth = maxDepth then (none, place)
      else
        match readBracket fuel ⟨cs, place.depth + 1⟩ with
        | (some items, place) => .after items (readItems fuel level? place)
        | (none, place) => (none, place)
    | c :: cs =>
      if c = ']' ∧ level?.any fun level => place.depth % 2 = level % 2 then (some [], place)
      else .after [.literal c] (readItems fuel level? ⟨cs, place.depth⟩)

/-- The items that a bracket stands for, from behind its opening bracket up to
    and with its closing one. Blanks before the closing bracket do not matter,
    unless the first nested pattern fails. -/
def readBracket : Nat → Place → Reading Pattern
  | 0, place => (none, place)
  | fuel + 1, ⟨cs, depth⟩ =>
    match splitWord (dropBlanks cs) with
    | ([], rest) => (none, ⟨rest, depth⟩)
    | (name, rest) =>
      match readModifiers (rest.length + 1) rest with
      | (none, rest) => (none, ⟨rest, depth⟩)
      | (some modifiers, rest) =>
        let (nested, place) := readNested fuel ⟨dropBlanks rest, depth⟩
        let bracket : Bracket :=
          ⟨lower name, modifiers, rest.head?.any Text.isAsciiBlank, nested⟩
        match if nested.isEmpty then place.text else dropBlanks place.text with
        | ']' :: after =>
          (bracket.items?, ⟨after, place.depth - 1⟩)
        | after => (none, ⟨after, place.depth⟩)

/-- The nested patterns at the front of a text, with blanks behind them, up to
    the first that fails. -/
def readNested : Nat → Place → List Pattern × Place
  | fuel + 1, ⟨'[' :: cs, depth⟩ =>
    if depth = maxDepth then ([], ⟨'[' :: cs, depth⟩)
    else
      match readItems fuel (some (depth + 1)) ⟨cs, depth + 1⟩ with
      | (some items, ⟨']' :: rest, depth⟩) =>
        let (more, place) := readNested fuel ⟨dropBlanks rest, depth - 1⟩
        (items :: more, place)
      | (_, place) => ([], place)
  | _, place => ([], place)

end

/-- The pattern that a text describes. -/
def read? (cs : List Char) : Option Pattern :=
  (readItems (cs.length + 1) none ⟨cs, 0⟩).1

end Logbook.Calendar.Pattern
