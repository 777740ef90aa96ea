import Logbook.Event.Basic

/-!
# What an event shows

An event is shown with its linked error: its trace is the event's own, or else
the error's, and the fields of the event as a whole are the system fields of
both and the event's own fields. Where the last message of the error is empty,
the body of the event stands for it, as `Record.withLastBody` says; the other
empty messages are not shown.
-/

namespace Logbook

namespace Record

/-- The record with a text in place of its last message, if that is empty. -/
def withLastBody (r : Record) (body : String) : Record :=
  match r.messages.getLast? with
  | some last =>
    if last.body.isEmpty then { r with messages := r.messages.dropLast ++ [{ last with body }] }
    else r
  | none => r

/-- The texts of messages, without the empty ones. -/
def shownTexts (messages : List Message) : List String :=
  (messages.map Message.body).filter fun body => !body.isEmpty

def textsBeneath (r : Record) (frame : Nat) : List String := shownTexts (r.messagesBeneath frame)

/-- The texts that are shown at a frame or beyond it. -/
def textsOutward (r : Record) (frame : Nat) : List String :=
  shownTexts (r.messages.filter fun m => frame ≤ m.frame)

/-- The fields at a frame or beyond it. -/
def fieldsOutward (r : Record) (frame : Nat) : List Field :=
  r.fields.filter fun f => frame ≤ f.frame

end Record

namespace Event

/-- The linked error, with the body of the event for an empty last message. -/
def linked? (e : Event) : Option Record := e.error.map fun r => r.withLastBody e.message.body

/-- The trace that is shown: the event's own, or else that of the linked error. -/
def shownTrace (e : Event) : Trace :=
  if e.message.hasTrace then e.message.trace else (e.error.map Record.trace).getD []

/-- The fields of the event as a whole: its own system fields, those of the
    linked error, and its own other fields. -/
def wholeFields (e : Event) : List Field :=
  e.message.systemFields ++ (e.error.map Record.systemFields).getD [] ++ e.message.fields

end Event

end Logbook
