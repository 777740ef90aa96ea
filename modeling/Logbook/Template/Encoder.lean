import Logbook.Template.ColorTable
import Logbook.Template.Source
import Logbook.Template.TraceStyle
import Logbook.Text.Utf8

/-!
# Templates as encoders

What a template program writes for an event: one text for each of its
instructions, in their order. A verb whose content is empty writes nothing, not
even the texts around it. A time can stop the rendering, so that there is no text:
`Program.render?` says so, and `Program.render` gives the text where there is one.
An encoder is any function from events to octets; `Encoder.ofText` makes one of a
function to texts such as `Template.encode`.
-/

namespace Logbook

/-- What the rendering of a program depends on besides the event: the colors of
    levels, and whether fields that may be left out are shown with a zero. -/
structure RenderSettings where
  colors : ColorTable
  keepZeros : Bool

namespace VerbStyle

def bodyText (style : VerbStyle) (e : Event) : String :=
  if e.message.body.isEmpty then "" else style.before ++ e.message.body ++ style.after

def fieldsText (style : VerbStyle) (keepZeros : Bool) (e : Event) : String :=
  let shown := e.wholeFields.filter (·.isShown keepZeros)
  if shown.isEmpty then ""
  else style.before ++ (FieldStyle.ofFields style).render shown ++ style.after

/-- The text of a caller verb: the innermost frame, unless it is hidden. -/
def callerText (style : VerbStyle) (layout : FrameLayout) (e : Event) : String :=
  match e.shownTrace with
  | frame :: _ => if style.hidden then "" else style.before ++ layout.render frame ++ style.after
  | [] => ""

end VerbStyle

namespace Program

/-- The layout of the stack traces of a program. -/
def traceStyle (p : Program) (verb : VerbStyle) : TraceStyle :=
  ⟨verb, p.frameLayout, .beneathFrames verb p.fieldsStyle?⟩

/-- The text that an instruction of a program writes for an event. -/
def renderInstruction (p : Program) (settings : RenderSettings) (e : Event) : Instruction → String
  | .literal s => s
  | .color s => s
  | .levelColor => (settings.colors.get e.level).getD ""
  | .level style => style.text e.level
  | .time layout => layout.render e.time
  | .body style => style.bodyText e
  | .fields style => style.fieldsText settings.keepZeros e
  | .trace style => (p.traceStyle style).render (e.traceBlocks settings.keepZeros)
  | .caller style => style.callerText p.frameLayout e

def render (p : Program) (settings : RenderSettings) (e : Event) : String :=
  Text.concat (p.instructions.map (p.renderInstruction settings e))

/-- The text that an instruction writes, unless it stops the rendering. -/
def renderInstruction? (p : Program) (settings : RenderSettings) (e : Event) :
    Instruction → Option String
  | .time layout => layout.render? e.time
  | instruction => some (p.renderInstruction settings e instruction)

/-- The text that the program writes, unless one of its instructions stops the
    rendering. -/
def render? (p : Program) (settings : RenderSettings) (e : Event) : Option String :=
  (p.instructions.mapM (p.renderInstruction? settings e)).map Text.concat

end Program

/-- What makes the octets of an event that sinks get. -/
abbrev Encoder := Event → List UInt8

/-- The encoder whose octets are those of a text. -/
def Encoder.ofText (text : Event → String) : Encoder := fun e => Text.Utf8.encode (text e)

/-- A compiled template with its settings. -/
structure Template where
  program : Program
  settings : RenderSettings

namespace Template

def ofText (text : String) (settings : RenderSettings) : Template :=
  ⟨(Program.compile text).program, settings⟩

/-- The template that is used where none is given. -/
def standard : Template := ofText standardText ⟨.standard, false⟩

/-- The text of an event. Where a time stops the rendering there is none, and this is what
    the other instructions write. -/
def encode (t : Template) (e : Event) : String := t.program.render t.settings e

end Template

end Logbook
