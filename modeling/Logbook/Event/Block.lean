import Logbook.Event.Shown

/-!
# Stack traces in blocks

The stack trace of an event is shown in blocks: a frame, and beneath it the
messages and the fields that the linked error holds at it. An error can hold
entries beyond the last frame that is shown. They form a block of their own in
`Event.traceBlocks`, and belong to the block of the last frame in
`Event.framedBlocks`.
-/

namespace Logbook

/-- A frame, if there is one, with the messages and the fields beneath it. -/
structure TraceBlock where
  frame : Option Frame
  texts : List String
  fields : List Field
  deriving Inhabited

namespace TraceBlock

/-- There is nothing to show. -/
def isEmpty (b : TraceBlock) : Bool := b.frame.isNone && b.texts.isEmpty && b.fields.isEmpty

/-- The block of a frame with what a linked error holds at its index. -/
def atFrame (keepZeros : Bool) (linked : Option Record) (frame : Frame) (index : Nat) :
    TraceBlock :=
  match linked with
  | some r =>
    { frame, texts := r.textsBeneath index,
      fields := (r.fieldsBeneath index).filter (·.isShown keepZeros) }
  | none => { frame, texts := [], fields := [] }

/-- A block with what a linked error holds at an index and beyond it. -/
def outward (keepZeros : Bool) (linked : Option Record) (frame : Option Frame) (index : Nat) :
    TraceBlock :=
  match linked with
  | some r =>
    { frame, texts := r.textsOutward index,
      fields := (r.fieldsOutward index).filter (·.isShown keepZeros) }
  | none => { frame, texts := [], fields := [] }

end TraceBlock

namespace Event

/-- A block for every frame, and a block without a frame for what lies beyond the
    last one, if there is anything. -/
def traceBlocks (keepZeros : Bool) (e : Event) : List TraceBlock :=
  let frames := e.shownTrace
  let beyond := TraceBlock.outward keepZeros e.linked? none frames.length
  frames.zipIdx.map (fun (frame, index) => TraceBlock.atFrame keepZeros e.linked? frame index) ++
    if beyond.isEmpty then [] else [beyond]

/-- A block for every frame, of which the last one also holds what lies beyond
    it. -/
def framedBlocks (keepZeros : Bool) (e : Event) : List TraceBlock :=
  let frames := e.shownTrace
  frames.zipIdx.map fun (frame, index) =>
    if index + 1 = frames.length then TraceBlock.outward keepZeros e.linked? frame index
    else TraceBlock.atFrame keepZeros e.linked? frame index

end Event

end Logbook
