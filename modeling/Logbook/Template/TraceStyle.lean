import Logbook.Event.Block
import Logbook.Template.FieldStyle

/-!
# Styles of stack traces

A stack trace is written block by block. A frame begins a line, every message
beneath it is on a line of its own, and so are the fields beneath it.
-/

namespace Logbook

/-- How a stack trace is laid out. -/
structure TraceStyle where
  verb : VerbStyle
  frame : FrameLayout
  fields : FieldStyle

namespace TraceStyle

/-- The text of a block behind others, if any. Every message is on a line of its
    own, and so are the fields. -/
def renderBlock (style : TraceStyle) (begun : Bool) (b : TraceBlock) : String :=
  let verb := style.verb
  let frame :=
    match b.frame with
    | some f =>
      (if begun then verb.afterValue ++ verb.lineBreakText else "") ++ style.frame.render f
    | none => ""
  let begun := begun || b.frame.isSome
  let texts :=
    (if begun && !b.texts.isEmpty then verb.errorLineBreakText else "") ++
      Text.join verb.errorLineBreakText b.texts
  frame ++ texts ++ style.fields.renderBeneath (begun || !b.texts.isEmpty) b.fields

/-- The text of a stack trace. -/
def render (style : TraceStyle) : List TraceBlock → String
  | [] => ""
  | first :: rest =>
    style.verb.before ++ style.renderBlock false first ++
      Text.concat (rest.map (style.renderBlock true)) ++ style.verb.after

end TraceStyle

end Logbook
