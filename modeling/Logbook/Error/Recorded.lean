import Logbook.Record.Basic

/-!
# Recorded errors

An error that carries a record: the stack at its making, and the messages and
fields that it was given on its way outwards, each message one frame further
out than the one before. Fields of the system hold its number and its class.
-/

namespace Logbook

/-- The name of the field with the number of an error. -/
def errorNumberKey : String := "error_id"

/-- The name of the field with the number of the class of an error. -/
def classNumberKey : String := "error_class_id"

/-- The name of the field with the name of the class of an error. -/
def classNameKey : String := "error_class_name"

/-- An error with a number of its own and a record. -/
structure RecordedError where
  id : Nat
  record : Record
  deriving Inhabited

namespace RecordedError

/-- A new error with a message, and with the captured frames as its trace. -/
def make (id : Nat) (message : String) (captured : Trace) : RecordedError :=
  { id
    record := ((Record.empty.capture captured).addMessage message).addSystemField
      (Field.make errorNumberKey (.nat64 (.ofNat id))) }

/-- The error with a message around it, one frame further out. -/
def wrap (e : RecordedError) (message : String) : RecordedError :=
  { e with record := e.record.wrap message }

/-- The error with a field at its outermost frame. -/
def annotated (e : RecordedError) (f : Field) : RecordedError :=
  { e with record := e.record.addField f }

def classified (e : RecordedError) (classId : UInt32) (className : String) : RecordedError :=
  { e with
    record := (e.record.addSystemField (Field.make classNumberKey (.nat32 classId))).addSystemField
      (Field.make classNameKey (.text className)) }

/-- The messages that are not empty, the outermost first. -/
def text (e : RecordedError) : String :=
  Text.join ": " ((e.record.messages.reverse.map Message.body).filter fun body => !body.isEmpty)

/-- What is done to an error after it was made. -/
inductive Step where
  | wrap (message : String)
  | field (field : Field)
  | classify (classId : UInt32) (className : String)

/-- The error after a step. -/
def apply (e : RecordedError) : Step → RecordedError
  | .wrap message => e.wrap message
  | .field f => e.annotated f
  | .classify classId className => e.classified classId className

/-- The error after a list of steps. -/
def run (e : RecordedError) (steps : List Step) : RecordedError := steps.foldl apply e

end RecordedError

end Logbook
