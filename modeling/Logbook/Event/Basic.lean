import Logbook.Level
import Logbook.Calendar.Timestamp
import Logbook.Error.Chain

/-!
# Log events

One occurrence that is logged: its level, its time, a record of its own, and the
record of an error that is linked to it.
-/

namespace Logbook

/-- A log event. -/
structure Event where
  level : Level
  time : Calendar.Timestamp
  message : Record
  error : Option Record
  deriving Inhabited

namespace Event

def new (level : Level) (time : Calendar.Timestamp) : Event := ⟨level, time, .empty, none⟩

/-- The event with another level. -/
def withLevel (e : Event) (level : Level) : Event := { e with level }

/-- The event with another time. -/
def withTime (e : Event) (time : Calendar.Timestamp) : Event := { e with time }

def withMessage (e : Event) (body : String) : Event := { e with message := e.message.putBody body }

def addField (e : Event) (f : Field) : Event := { e with message := e.message.addField f }

def link (e : Event) (record : Record) : Event := { e with error := some record }

/-- The event with a chain of errors as its linked error. The record of an error
    that was linked before is cleared and used again. -/
def attach (e : Event) (recorder : ErrorRecorder) (chain : Chain) : Event :=
  { e with error := some (recorder chain (e.error.getD .empty).clear) }

/-- The event without a linked error. -/
def unlink (e : Event) : Event := { e with error := none }

/-- The event or its linked error has a stack trace. -/
def hasTrace (e : Event) : Bool := e.message.hasTrace || e.error.any Record.hasTrace

/-- The event without its entries and its linked error. -/
def clear (e : Event) : Event := { e with message := e.message.clear, error := none }

/-- The event has entries of its own. -/
def isEmpty (e : Event) : Bool := e.message.isEmpty

end Event

end Logbook
