import Logbook.Field.Basic
import Logbook.Template.VerbStyle
import Logbook.Text.Blank

/-!
# Styles of fields

Fields that stand in a line of text are separated, and wrapped after a number of
them. The fields verb has such a style, and so have the fields beneath the frames
of a stack trace.
-/

namespace Logbook

/-- How fields are laid out one after another. -/
structure FieldStyle where
  beforeKey : String
  afterKey : String
  separator : String
  lineBreak : String
  perLine : Nat

namespace FieldStyle

/-- The text before the field at a position: nothing before the first one, and a
    line break where a line is full. The separator before a line break loses the
    blanks at its end. -/
def gapBefore (style : FieldStyle) (position : Nat) : String :=
  if position = 0 then ""
  else if 0 < style.perLine ∧ position % style.perLine = 0 then
    String.ofList (Text.trimEnd style.separator.toList) ++ style.lineBreak
  else style.separator

def item (style : FieldStyle) (f : Field) (position : Nat) : String :=
  style.beforeKey ++ f.label position ++ style.afterKey ++ f.shownValue

/-- The text of some fields. -/
def render (style : FieldStyle) (fields : List Field) : String :=
  Text.concat (fields.zipIdx.map fun (f, position) =>
    style.gapBefore position ++ style.item f position)

/-- The text of some fields on a line of their own, which begins with a line break
    if anything stands before it. -/
def renderBeneath (style : FieldStyle) (begun : Bool) (fields : List Field) : String :=
  if fields.isEmpty then "" else (if begun then style.lineBreak else "") ++ style.render fields

/-- The layout of a fields verb. -/
def ofFields (verb : VerbStyle) : FieldStyle :=
  ⟨verb.beforeKey, verb.afterKey, verb.afterValue, verb.lineBreakText, verb.perLine⟩

/-- The layout of the fields beneath a frame: that of the fields verb if there is
    one, but with its line break of errors, or else plain pairs on one line. -/
def beneathFrames (trace : VerbStyle) (fields : Option VerbStyle) : FieldStyle :=
  match fields with
  | some verb => { ofFields verb with lineBreak := verb.errorLineBreakText }
  | none =>
    { beforeKey := trace.beforeKey
      afterKey := if trace.afterKey.isEmpty then "=" else trace.afterKey
      separator := " "
      lineBreak := trace.errorLineBreakText
      perLine := 0 }

end FieldStyle

end Logbook
