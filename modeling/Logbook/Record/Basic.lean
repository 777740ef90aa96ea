import Logbook.Field.Basic
import Logbook.Stack.Frame

/-!
# Records

A record holds a stack trace, messages and fields. Every message and every field
belongs to a frame. New ones go to the frame at the record's cursor, which only
moves outwards, so the frames of the entries never decrease; and while there is
a trace no entry lies beyond its last frame. Fields of the system stand apart
and belong to the whole record.

The entries of one frame are found by halving, in `messagesBeneath` and `fieldsBeneath`.
-/

namespace Logbook

/-- A message at a frame. -/
structure Message where
  body : String
  frame : Nat
  deriving DecidableEq, Repr, Inhabited

/-- A stack trace with messages and fields at its frames. -/
structure Record where
  trace : Trace
  messages : List Message
  fields : List Field
  systemFields : List Field
  cursor : Nat
  deriving Inhabited, Repr

namespace Record

/-- The record without any entry. -/
def empty : Record := ⟨[], [], [], [], 0⟩

/-- There is a stack trace. -/
def hasTrace (r : Record) : Bool := !r.trace.isEmpty

/-- The nearest frame that an entry may belong to. -/
def clamp (r : Record) (frame : Nat) : Nat :=
  if r.trace.isEmpty then frame else min frame (r.trace.length - 1)

/-- The record with every entry and the cursor inside its trace. -/
def clampEntries (r : Record) : Record :=
  { r with
    messages := r.messages.map fun m => { m with frame := r.clamp m.frame }
    fields := r.fields.map fun f => f.atFrame (r.clamp f.frame)
    cursor := r.clamp r.cursor }

/-- The record with another trace. -/
def withTrace (r : Record) (trace : Trace) : Record := { r with trace }.clampEntries

/-- The record with the captured frames as its trace, unless it has a trace. -/
def capture (r : Record) (captured : Trace) : Record :=
  if r.hasTrace then r else { r with trace := r.trace ++ captured }.clampEntries

/-- The record with the cursor at a frame, unless the cursor is beyond it. -/
def moveTo (r : Record) (frame : Nat) : Record := { r with cursor := r.clamp (max frame r.cursor) }

/-- The record with the cursor at the next frame. The number of a frame fits a
    word, so that the cursor stays where the last number is reached. -/
def advance (r : Record) : Record := r.moveTo ((r.cursor + 1) % UInt64.size)

/-- The record with a message at the cursor. -/
def addMessage (r : Record) (body : String) : Record :=
  { r with messages := r.messages ++ [⟨body, r.cursor⟩] }

/-- The record with a message one frame further out. -/
def wrap (r : Record) (body : String) : Record := r.advance.addMessage body

/-- The record with a field at the cursor. -/
def addField (r : Record) (f : Field) : Record :=
  { r with fields := r.fields ++ [f.atFrame r.cursor] }

def addSystemField (r : Record) (f : Field) : Record :=
  { r with systemFields := r.systemFields ++ [f.asSystem] }

/-- The record with a body, which is its first message, at the first frame. -/
def putBody (r : Record) (body : String) : Record :=
  match r.messages with
  | first :: rest =>
    if first.frame = 0 then { r with messages := { first with body } :: rest }
    else { r with messages := ⟨body, 0⟩ :: r.messages }
  | [] => { r with messages := [⟨body, 0⟩] }

/-- The record without its entries. -/
def clear (_ : Record) : Record := empty

/-- The first field of the system with a name. -/
def systemFieldNamed? (r : Record) (key : String) : Option Field :=
  r.systemFields.find? fun f => f.key = key

/-- The text of the first message. -/
def body (r : Record) : String := (r.messages.head?.map Message.body).getD ""

def lastMessage? (r : Record) : Option Message := r.messages.getLast?

/-- There is neither a trace nor a message nor a field. -/
def isEmpty (r : Record) : Bool :=
  r.trace.isEmpty && r.messages.isEmpty && r.fields.isEmpty && r.systemFields.isEmpty

end Record

/-- The number of entries before the first one whose frame is not below `frame`,
    in a list in which frames do not decrease. The answer lies among the `count`
    places behind `low`; each step halves them. -/
def lowerBound (frameOf : α → Nat) (frame : Nat) (entries : List α) (low count : Nat) : Nat :=
  if _h : count = 0 then low
  else
    let half := count / 2
    match entries[low + half]? with
    | some entry =>
      if frameOf entry < frame then
        lowerBound frameOf frame entries (low + half + 1) (count - half - 1)
      else lowerBound frameOf frame entries low half
    | none => low
  termination_by count
  decreasing_by all_goals omega

/-- The entries of exactly one frame, in a list in which frames do not decrease. -/
def runOf (frameOf : α → Nat) (frame : Nat) (entries : List α) : List α :=
  (entries.drop (lowerBound frameOf frame entries 0 entries.length)).takeWhile
    fun entry => frameOf entry = frame

namespace Record

def messagesBeneath (r : Record) (frame : Nat) : List Message :=
  runOf Message.frame frame r.messages

def fieldsBeneath (r : Record) (frame : Nat) : List Field :=
  runOf Field.frame frame r.fields

@[simp] theorem clear_eq_empty (r : Record) : r.clear = empty := rfl

end Record

end Logbook
