import Logbook.Diagnostic
import Logbook.Template.Color
import Logbook.Template.Program

/-!
# Verbs

A verb stands between double braces: a name, and perhaps a slash and arguments.
Every verb has several names. `Verb.read` makes an instruction of the text
between the braces, or says what is wrong with it. Four of the verbs may occur
only once in a template.
-/

namespace Logbook

/-- What a verb writes. -/
inductive Verb where
  | caller
  | color
  | level
  | time
  | body
  | fields
  | trace
  deriving DecidableEq, Repr

namespace Verb

def names : List (String × Verb) :=
  [("caller", caller), ("who", caller), ("w", caller), ("color", color), ("c", color),
    ("level", level), ("lvl", level), ("l", level), ("time", time), ("t", time),
    ("message", body), ("body", body), ("m", body), ("b", body), ("fields", fields), ("f", fields),
    ("stacktrace", trace), ("s", trace)]

def ofName? (name : List Char) : Option Verb := names.lookup (String.ofList name)

/-- The verb occurs at most once in a template. -/
def isSingleUse : Verb → Bool
  | caller | body | fields | trace => true
  | color | level | time => false

/-- The name and the argument text of the text between the braces of a verb. -/
def splitName (text : List Char) : List Char × Option (List Char) :=
  match Text.splitFirst '/' text with
  | some (name, arguments) => (name, some arguments)
  | none => (text, none)

def levelInstruction? : Option (List Char) → Option Instruction
  | none => some (.level .full)
  | some tag => (LevelStyle.ofTag? tag).map .level

/-- The instruction of a color verb: without arguments the color of the level,
    and otherwise the color of its modifiers. -/
def colorInstruction? : Option (List Char) → Option Instruction
  | none => some .levelColor
  | some arguments => (Color.compile (cutArguments arguments)).toOption.map .color

/-- The instruction of a verb with the given argument text. -/
def instruction? (arguments : Option (List Char)) : Verb → Option Instruction
  | level => levelInstruction? arguments
  | time => some (.time (.ofArgument (arguments.map resolveEscapes)))
  | color => colorInstruction? arguments
  | body => some (.body (.ofDirectives (Directive.ofArguments false arguments)))
  | fields => some (.fields (.ofDirectives (Directive.ofArguments false arguments)))
  | trace => some (.trace (.ofDirectives (Directive.ofArguments false arguments)))
  | caller => some (.caller (.ofDirectives (Directive.ofArguments true arguments)))

/-- The verb and the instruction of the text between two pairs of braces, where
    the given verbs occurred before. -/
def read (seen : List Verb) (text : List Char) : Except VerbFault (Verb × Instruction) :=
  let (name, arguments) := splitName text
  match ofName? name with
  | none => .error .unknownAlias
  | some verb =>
    if verb.isSingleUse ∧ verb ∈ seen then .error .repeatedVerb
    else
      match instruction? arguments verb with
      | some instruction => .ok (verb, instruction)
      | none => .error .badArguments

/-- The frame layout that a verb gives: a caller gives one always. -/
def frameLayout? (verb : Verb) (text : List Char) : Option FrameLayout :=
  if verb = caller then
    some (FrameLayout.ofDirectives (Directive.ofArguments true (splitName text).2))
  else none

end Verb

end Logbook
