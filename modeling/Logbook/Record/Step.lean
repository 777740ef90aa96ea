import Logbook.Record.Basic

/-!
# Histories of a record

The operations that a program applies to a record, as data. `Record.run` is the
record that a list of operations makes of another, and `Record.ofSteps` the one
that it makes of the empty record.
-/

namespace Logbook.Record

/-- An operation on a record. -/
inductive Step where
  | withTrace (trace : Trace)
  | capture (captured : Trace)
  | advance
  | moveTo (frame : Nat)
  | addMessage (body : String)
  | addField (field : Field)
  | addSystemField (field : Field)
  | putBody (body : String)
  | clear

/-- The record after an operation. -/
def apply (r : Record) : Step → Record
  | .withTrace trace => r.withTrace trace
  | .capture captured => r.capture captured
  | .advance => r.advance
  | .moveTo frame => r.moveTo frame
  | .addMessage body => r.addMessage body
  | .addField field => r.addField field
  | .addSystemField field => r.addSystemField field
  | .putBody body => r.putBody body
  | .clear => r.clear

/-- The record after a list of operations. -/
def run (r : Record) (steps : List Step) : Record := steps.foldl apply r

/-- The record that a list of operations makes of the empty one. -/
def ofSteps (steps : List Step) : Record := empty.run steps

end Logbook.Record
