import Logbook.Event.Block

/-!
# Structured log lines

An event as one JSON object on a line. The object always holds the level, its
value, the time and the message. The number and the class of an error are
members of their own. The text of a linked error, the fields and the stack trace
are left out where they are empty.
-/

namespace Logbook

/-- How the fields of an event are written: as a list of objects, or as one
    object whose names are the frames and the names of the fields. -/
inductive FieldsLayout where
  | list
  | flat
  deriving DecidableEq, Repr

/-- The encoder of structured log lines. -/
structure Structured where
  layout : FieldsLayout
  keepZeros : Bool
  deriving DecidableEq, Repr

namespace Structured

/-- The names of the system fields that become members of their own. -/
def liftedKeys : List String := [errorNumberKey, classNumberKey, classNameKey]

/-- The field is a member of its own. -/
def isLifted (f : Field) : Bool := f.system && liftedKeys.contains f.key

/-- The system field of an event with a name, or else that of its linked error. -/
def systemFieldNamed? (e : Event) (key : String) : Option Field :=
  (e.message.systemFieldNamed? key).or (e.error.bind fun r => r.systemFieldNamed? key)

/-- The members for the number and the class of an error. -/
def liftedMembers (e : Event) : List (String × Json) :=
  liftedKeys.filterMap fun key => (systemFieldNamed? e key).map fun f => (key, f.value.toJson)

/-- The text of the linked error: its messages, the outermost first. -/
def errorText? (e : Event) : Option String :=
  match (e.linked?.map fun r => r.textsOutward 0).getD [] with
  | [] => none
  | texts => some (Text.join ": " texts.reverse)

/-- The fields of an event that are written together. -/
def listedFields (s : Structured) (e : Event) : List Field :=
  (e.wholeFields.filter (·.isShown s.keepZeros)).filter fun f => !isLifted f

/-- Fields as a list of objects. -/
def fieldList (fields : List Field) : Json :=
  .array (fields.zipIdx.map fun (f, position) =>
    .object [("key", .text (f.label position)), ("value", f.value.toJson)])

/-- Fields as one object. -/
def flatFields (fields : List Field) : Json :=
  .object (fields.zipIdx.map fun (f, position) =>
    (String.ofList (Text.digits f.frame) ++ "." ++ f.label position, f.value.toJson))

/-- Fields in the layout of the encoder. -/
def fieldsJson (layout : FieldsLayout) (fields : List Field) : Json :=
  match layout with
  | .list => fieldList fields
  | .flat => flatFields fields

/-- A member that may be missing. -/
def member (name : String) (value : Option Json) : List (String × Json) :=
  (value.map fun v => (name, v)).toList

/-- The value if it is not empty. -/
def unlessEmpty (isEmpty : Bool) (value : Json) : Option Json :=
  if isEmpty then none else some value

/-- The object of a frame with its messages and fields. -/
def blockJson (frame : Frame) (b : TraceBlock) : Json :=
  .object <|
    [("func", .text frame.function), ("file", .text (frame.file ++ ":" ++ frame.lineText)),
      ("package", .text frame.package)] ++
    member "message" (unlessEmpty b.texts.isEmpty (.text (Text.join "; " b.texts))) ++
    member "fields" (unlessEmpty b.fields.isEmpty (fieldList b.fields))

/-- The stack trace of an event. -/
def traceJson (s : Structured) (e : Event) : Json :=
  .array ((e.framedBlocks s.keepZeros).filterMap fun b =>
    b.frame.map fun frame => blockJson frame b)

/-- The members of the object of an event. -/
def members (s : Structured) (e : Event) : List (String × Json) :=
  [("level", .text e.level.lowerName), ("level_value", .integer e.level.value),
    ("time", (Payload.time e.time).toJson), ("message", .text e.message.body)] ++
  liftedMembers e ++
  member "error" ((errorText? e).map .text) ++
  member "fields"
    (unlessEmpty (s.listedFields e).isEmpty (fieldsJson s.layout (s.listedFields e))) ++
  member "stacktrace" (unlessEmpty e.shownTrace.isEmpty (s.traceJson e))

def document (s : Structured) (e : Event) : Json := .object (s.members e)

/-- The line of an event. -/
def encode (s : Structured) (e : Event) : String := (s.document e).write ++ "\n"

end Structured

end Logbook
