import Logbook.Stack.Frame

/-!
# Frame layouts

A frame layout is a text in which six letters stand for parts of a stack frame
and every other character for itself. A letter counts only where it occurs
first: a repeated letter is left out, and the literal text around it stays in
one piece.
-/

namespace Logbook

inductive FramePiece where
  | literal (chars : List Char)
  | functionName
  | function
  | fileName
  | file
  | line
  | package
  deriving DecidableEq, Repr

namespace FramePiece

/-- The part that a letter stands for. -/
def ofLetter? : Char → Option FramePiece
  | 'f' => some functionName
  | 'F' => some function
  | 'n' => some fileName
  | 'N' => some file
  | 'l' => some line
  | 'p' => some package
  | _ => none

/-- The characters of a layout that a part is read from. -/
def source : FramePiece → List Char
  | literal chars => chars
  | functionName => ['f']
  | function => ['F']
  | fileName => ['n']
  | file => ['N']
  | line => ['l']
  | package => ['p']

/-- The text of a part of a frame. -/
def text (f : Frame) : FramePiece → String
  | literal chars => String.ofList chars
  | functionName => f.functionName
  | function => f.function
  | fileName => f.fileName
  | file => f.file
  | line => f.lineText
  | package => f.package

end FramePiece

/-- How a stack frame is laid out. -/
abbrev FrameLayout := List FramePiece

namespace FrameLayout

/-- The literal piece of some characters, if there are any. -/
def literal (chars : List Char) : FrameLayout := if chars.isEmpty then [] else [.literal chars]

/-- Reads a layout behind the given literal characters and parts. -/
def readAfter (seen : List FramePiece) (chars : List Char) : List Char → FrameLayout
  | [] => literal chars
  | c :: cs =>
    match FramePiece.ofLetter? c with
    | none => readAfter seen (chars ++ [c]) cs
    | some part =>
      if part ∈ seen then readAfter seen chars cs
      else literal chars ++ part :: readAfter (part :: seen) [] cs

/-- The layout that a text describes. -/
def read (cs : List Char) : FrameLayout := readAfter [] [] cs

/-- The layout of a template that gives none. -/
def standard : FrameLayout := read "F (N:l)".toList

def render (layout : FrameLayout) (f : Frame) : String :=
  Text.concat (layout.map (FramePiece.text f))

/-- The text that a layout is read from. -/
def source (layout : FrameLayout) : List Char := layout.flatMap FramePiece.source

@[simp] theorem source_literal (chars : List Char) : source (literal chars) = chars := by
  unfold literal
  split <;> simp_all [source, FramePiece.source]

end FrameLayout

end Logbook
