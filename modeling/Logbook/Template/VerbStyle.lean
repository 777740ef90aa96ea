import Logbook.Template.Directive

/-!
# Styles of verbs

How a verb writes what it writes. A style begins plain, and the directives of
the verb set its parts one after another, so that the last of two directives of
one name decides.
-/

namespace Logbook

/-- How a verb writes: the texts around the parts of what it writes, and the
    number of fields on a line, of which zero is no limit. A hidden verb writes
    nothing. -/
@[ext] structure VerbStyle where
  before : String
  after : String
  beforeKey : String
  afterKey : String
  afterValue : String
  lineBreak : Option String
  errorLineBreak : Option String
  perLine : Nat
  hidden : Bool
  deriving DecidableEq, Repr

namespace VerbStyle

/-- The style of a verb without directives. -/
def plain : VerbStyle := ⟨"", "", "", "", "", none, none, 0, false⟩

instance : Inhabited VerbStyle := ⟨plain⟩

/-- The text between two lines. -/
def lineBreakText (style : VerbStyle) : String := style.lineBreak.getD "\n"

/-- The text before a line that belongs to an error. -/
def errorLineBreakText (style : VerbStyle) : String := style.errorLineBreak.getD "\n\t"

/-- How many octets a verb is expected to write around a content of the given
    size. -/
def estimate (style : VerbStyle) (content : Nat) : Nat :=
  if style.hidden then 0
  else style.before.utf8ByteSize + style.after.utf8ByteSize + content

/-- The style with one of its parts set. -/
def apply (style : VerbStyle) : Directive → VerbStyle
  | .before text => { style with before := text }
  | .after text => { style with after := text }
  | .beforeKey text => { style with beforeKey := text }
  | .afterKey text => { style with afterKey := text }
  | .afterValue text => { style with afterValue := text }
  | .lineBreak text => { style with lineBreak := some text }
  | .errorLineBreak text => { style with errorLineBreak := some text }
  | .perLine count => { style with perLine := count }
  | .hide => { style with hidden := true }
  | .frameLayout _ => style

/-- The style that directives make one after another. -/
def ofDirectives (directives : List Directive) : VerbStyle := directives.foldl apply plain

end VerbStyle

/-- The frame layout of the last directive that gives one. -/
def FrameLayout.ofDirectives (directives : List Directive) : FrameLayout :=
  (directives.reverse.findSome? Directive.frameLayout?).getD .standard

end Logbook
