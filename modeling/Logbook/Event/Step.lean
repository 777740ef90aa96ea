import Logbook.Event.Basic
import Logbook.Record.Step

/-!
# Histories of an event

The operations that a program applies to an event, as data, and the event that a
list of them makes. Chains of errors are recorded by the recorder that is given.
-/

namespace Logbook.Event

/-- An operation on an event. -/
inductive Step where
  | withLevel (level : Level)
  | withTime (time : Calendar.Timestamp)
  | withMessage (body : String)
  | addField (field : Field)
  | onMessage (step : Record.Step)
  | link (record : Record)
  | attach (chain : Chain)
  | onError (step : Record.Step)
  | unlink
  | clear

/-- The event after an operation. -/
def apply (recorder : ErrorRecorder) (e : Event) : Step → Event
  | .withLevel level => e.withLevel level
  | .withTime time => e.withTime time
  | .withMessage body => e.withMessage body
  | .addField field => e.addField field
  | .onMessage step => { e with message := e.message.apply step }
  | .link record => e.link record
  | .attach chain => e.attach recorder chain
  | .onError step => { e with error := e.error.map fun r => r.apply step }
  | .unlink => e.unlink
  | .clear => e.clear

/-- The event after a list of operations. -/
def run (recorder : ErrorRecorder) (e : Event) (steps : List Step) : Event :=
  steps.foldl (apply recorder) e

end Logbook.Event
