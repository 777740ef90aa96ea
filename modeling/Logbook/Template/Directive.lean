import Logbook.Template.FrameLayout
import Logbook.Text.Number

/-!
# Directives

The arguments of a verb stand behind its name, each after a slash. In them a
backslash stands before a slash or another backslash that is meant as such, and
before the letters of a line feed and a tab. `cutArguments` takes an argument
text apart, and `resolveEscapes` resolves the backslashes in one that is not
taken apart. A directive is an argument of the form `name:value` that sets one
part of the style of its verb.
-/

namespace Logbook

/-- The characters that a backslash and a character behind it stand for. -/
def escaped (c : Char) : List Char :=
  if c = 'n' then ['\n']
  else if c = 't' then ['\t']
  else if c = '/' then ['/']
  else if c = '\\' then ['\\']
  else ['\\', c]

/-- Puts characters before the first of several texts. -/
def extendFirst (chars : List Char) : List (List Char) → List (List Char)
  | [] => [chars]
  | first :: rest => (chars ++ first) :: rest

/-- The arguments of an argument text, with their backslashes resolved. There is
    always one. -/
def cutArguments : List Char → List (List Char)
  | [] => [[]]
  | '/' :: cs => [] :: cutArguments cs
  | '\\' :: c :: cs => extendFirst (escaped c) (cutArguments cs)
  | c :: cs => extendFirst [c] (cutArguments cs)

/-- The text with its backslashes resolved. -/
def resolveEscapes : List Char → List Char
  | [] => []
  | '\\' :: c :: cs => escaped c ++ resolveEscapes cs
  | c :: cs => c :: resolveEscapes cs

/-- A setting of a verb. -/
inductive Directive where
  | before (text : String)
  | after (text : String)
  | beforeKey (text : String)
  | afterKey (text : String)
  | afterValue (text : String)
  | lineBreak (text : String)
  | errorLineBreak (text : String)
  | perLine (count : Nat)
  | hide
  | frameLayout (text : String)
  deriving DecidableEq, Repr

namespace Directive

/-- The directive of a name and a value. Some belong to the caller alone. -/
def ofName? (ofCaller : Bool) (name : String) (value : Option (List Char)) : Option Directive :=
  match value with
  | none => if ofCaller && (name = "x" || name = "hide") then some hide else none
  | some value =>
    let text := String.ofList value
    if name = "b" ∨ name = "before" then some (before text)
    else if name = "a" ∨ name = "after" then some (after text)
    else if name = "bk" ∨ name = "beforekey" then some (beforeKey text)
    else if name = "ak" ∨ name = "afterkey" then some (afterKey text)
    else if name = "av" ∨ name = "aftervalue" then some (afterValue text)
    else if name = "nl" ∨ name = "newline" then some (lineBreak text)
    else if name = "enl" ∨ name = "errornewline" then some (errorLineBreak text)
    else if name = "n" ∨ name = "perline" then (Text.readUnsigned? UInt64.size value).map perLine
    else if ofCaller ∧ (name = "fmt" ∨ name = "format") then some (frameLayout text)
    else none

def read? (ofCaller : Bool) (argument : List Char) : Option Directive :=
  match Text.splitFirst ':' argument with
  | some (name, value) => ofName? ofCaller (String.ofList name) (some value)
  | none => ofName? ofCaller (String.ofList argument) none

/-- The directives of a list of arguments, up to the first argument that is none. -/
def readAll (ofCaller : Bool) : List (List Char) → List Directive
  | [] => []
  | argument :: rest =>
    match read? ofCaller argument with
    | some directive => directive :: readAll ofCaller rest
    | none => []

/-- The directives of a verb with the given argument text. -/
def ofArguments (ofCaller : Bool) (arguments : Option (List Char)) : List Directive :=
  match arguments with
  | some cs => readAll ofCaller (cutArguments cs)
  | none => []

/-- The frame layout that a directive gives. -/
def frameLayout? : Directive → Option FrameLayout
  | frameLayout text => some (FrameLayout.read text.toList)
  | _ => none

end Directive

end Logbook
