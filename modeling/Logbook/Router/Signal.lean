import Logbook.Router.Session
import Logbook.Text.Quoted

/-!
# Forwarded signals

Other libraries report what they do in signals of their own: a severity, a
target and named values. A signal becomes a log event whose body is the value
that is named message and whose other values are its fields. The signals of
this library itself are not forwarded.
-/

namespace Logbook

inductive Severity where
  | error
  | warn
  | info
  | debug
  | trace
  deriving DecidableEq, Repr

/-- The level of a severity. The two least severe ones share a level. -/
def Severity.level : Severity → Level
  | error => .error
  | warn => .warning
  | info => .info
  | debug | trace => .debug

/-- A value of a signal. A described value is known by its description alone. -/
inductive SignalValue where
  | int (value : Int64)
  | nat (value : UInt64)
  | double (word : UInt64)
  | bool (value : Bool)
  | text (value : String)
  | described (description : String)
  deriving DecidableEq, Repr

/-- The value as the payload of a field. -/
def SignalValue.toPayload : SignalValue → Payload
  | int value => .int64 value
  | nat value => .nat64 value
  | double word => .float64 word
  | bool value => .bool value
  | text value => .text value
  | described description => .text description

def SignalValue.text? : SignalValue → Option String
  | text value => some value
  | described description => some description
  | _ => none

/-- The description of a text: the text between quotes. -/
def SignalValue.ofQuoted (s : String) : SignalValue := described (Text.quoted s)

structure Signal where
  severity : Severity
  target : String
  values : List (String × SignalValue)

namespace Signal

/-- The beginning of the targets of this library. -/
def ownTarget : String := "weft::"

/-- The name of the value that becomes the body. -/
def messageName : String := "message"

/-- The signal is one of this library. -/
def isOwn (s : Signal) : Bool := ownTarget.toList.isPrefixOf s.target.toList

/-- What is done to an event for a value of a signal. A text that is named message
    becomes the body; every other value becomes a field. -/
def step (name : String) (value : SignalValue) : Event.Step :=
  match value.text? with
  | some s =>
    if name = messageName then .withMessage s else .addField (Field.make name value.toPayload)
  | none => .addField (Field.make name value.toPayload)

/-- What is done to an event for a signal. -/
def steps (s : Signal) : List Event.Step := s.values.map fun (name, value) => step name value

end Signal

/-- Logs an event for a signal, if its level is enabled. -/
def Session.forward (b : SinkBackend σ ω) (s : Session σ ω) (signal : Signal)
    (time : Calendar.Timestamp) : Session σ ω :=
  if signal.isOwn || !s.router.enabled signal.severity.level then s
  else s.log b signal.severity.level time signal.steps

end Logbook
