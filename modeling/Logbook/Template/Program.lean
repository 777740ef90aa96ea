import Logbook.Template.LevelStyle
import Logbook.Template.TimeLayout
import Logbook.Template.VerbStyle

/-!
# Template programs

A compiled template is a list of instructions, each of which writes one part of
an event, and the frame layout that its stack traces and callers share. Literal
text needs no more than one instruction in a row: `fuseLiterals` brings a list
into that form.
-/

namespace Logbook

/-- An instruction of a template program. -/
inductive Instruction where
  | literal (text : String)
  | color (sequence : String)
  | levelColor
  | level (style : LevelStyle)
  | time (layout : TimeLayout)
  | body (style : VerbStyle)
  | fields (style : VerbStyle)
  | trace (style : VerbStyle)
  | caller (style : VerbStyle)
  deriving Repr

namespace Instruction

/-- How many octets an instruction is expected to write. -/
def estimate : Instruction → Nat
  | literal s => s.utf8ByteSize
  | color s => s.utf8ByteSize
  | levelColor => 32
  | level _ => 9
  | time layout => layout.estimate
  | body style => style.estimate 256
  | fields style => style.estimate 512
  | trace style => style.estimate 1024
  | caller style => style.estimate 128

def fieldsStyle? : Instruction → Option VerbStyle
  | fields style => some style
  | _ => none

end Instruction

/-- The instructions with each run of literals made one, and without empty
    literals. -/
def fuseLiterals : List Instruction → List Instruction
  | [] => []
  | .literal s :: rest =>
    match fuseLiterals rest with
    | .literal t :: merged => .literal (s ++ t) :: merged
    | merged => if s.isEmpty then merged else .literal s :: merged
  | instruction :: rest => instruction :: fuseLiterals rest

/-- A compiled template. -/
structure Program where
  instructions : List Instruction
  frameLayout : FrameLayout

namespace Program

/-- How many octets the program is expected to write. -/
def expectedSize (p : Program) : Nat := p.instructions.foldr (fun i size => i.estimate + size) 0

/-- The style of the first fields instruction. Fields beneath the frames of a
    stack trace follow it too. -/
def fieldsStyle? (p : Program) : Option VerbStyle :=
  p.instructions.findSome? Instruction.fieldsStyle?

end Program

end Logbook
