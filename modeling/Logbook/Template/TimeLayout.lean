import Logbook.Calendar.Pattern.Reader

/-!
# Time layouts

How a template writes the time of an event: by a named layout, or by a pattern
of its own. A layout is written completely or not at all. Where it cannot be
written, or where nothing would be written, the default layout stands in for it,
and where that fails too, the seconds since the beginning of 1970. Only a layout
that shows universal time can stop the rendering: where universal time has no date
there is no result at all.

The text goes to the end of a buffer that holds what the template wrote before.
What writes a pattern is a parameter of `TimeLayout.renderInto`. It can only add
to the buffer, and an attempt that fails may have added something, so the buffer
is cut back to its length before the attempt. `TimeLayout.render?` uses the patterns
of the calendar and a buffer of characters.
-/

namespace Logbook

inductive NamedTime where
  | standard
  | unix
  | ansiC
  | unixDate
  | rubyDate
  | rfc822
  | rfc822z
  | rfc850
  | rfc1123
  | rfc1123z
  | rfc3339
  deriving DecidableEq, Repr

namespace NamedTime

/-- The named layouts by their names. The standard one has none. -/
def named : List (String × NamedTime) :=
  [("unix", unix), ("ansic", ansiC), ("unixdate", unixDate), ("rubydate", rubyDate),
    ("rfc822", rfc822), ("rfc822z", rfc822z), ("rfc850", rfc850), ("rfc1123", rfc1123),
    ("rfc1123z", rfc1123z), ("rfc3339", rfc3339)]

/-- The layout of a name in any case of letters. -/
def ofName? (name : List Char) : Option NamedTime :=
  named.lookup (String.ofList (name.map Char.toLower))

/-- The pattern of a named layout. The seconds and the internet format have none. -/
def patternText : NamedTime → Option String
  | standard => "[year]-[month]-[day] [hour]:[minute]:[second].[subsecond digits:3]"
  | ansiC =>
    "[weekday repr:short] [month repr:short] [day padding:space] [hour]:[minute]:[second] [year]"
  | unixDate =>
    "[weekday repr:short] [month repr:short] [day padding:space] " ++
      "[hour]:[minute]:[second] UTC [year]"
  | rubyDate =>
    "[weekday repr:short] [month repr:short] [day] [hour]:[minute]:[second] " ++
      "[offset_hour sign:mandatory][offset_minute] [year]"
  | rfc822 => "[day] [month repr:short] [year repr:last_two] [hour]:[minute] UTC"
  | rfc822z =>
    "[day] [month repr:short] [year repr:last_two] [hour]:[minute] " ++
      "[offset_hour sign:mandatory][offset_minute]"
  | rfc850 =>
    "[weekday], [day]-[month repr:short]-[year repr:last_two] [hour]:[minute]:[second] UTC"
  | rfc1123 =>
    "[weekday repr:short], [day] [month repr:short] [year] [hour]:[minute]:[second] UTC"
  | rfc1123z =>
    "[weekday repr:short], [day] [month repr:short] [year] [hour]:[minute]:[second] " ++
      "[offset_hour sign:mandatory][offset_minute]"
  | unix | rfc3339 => none

/-- The pattern of a named layout, read. -/
def pattern? (layout : NamedTime) : Option Calendar.Pattern :=
  layout.patternText.bind fun s => Calendar.Pattern.read? s.toList

/-- The layout names universal time and so shows it. -/
def isUniversal : NamedTime → Bool
  | unixDate | rfc822 | rfc850 | rfc1123 => true
  | _ => false

end NamedTime

/-- A text that is asked for: a timestamp in seconds, in the internet format or by
    a pattern. -/
inductive TimeRequest where
  | seconds (t : Calendar.Timestamp)
  | internet (t : Calendar.Timestamp)
  | pattern (pattern : Calendar.Pattern) (t : Calendar.Timestamp)

/-- What a named layout asks for of a timestamp on its clock. -/
def NamedTime.request? (t : Calendar.Timestamp) (layout : NamedTime) : Option TimeRequest :=
  match layout with
  | .unix => some (.seconds t)
  | .rfc3339 => some (.internet t)
  | _ => layout.pattern?.map (.pattern · t)

/-- An attempt to write at the end of a buffer: what was added, and whether that is
    all of it. -/
structure TimeAttempt (α : Type) where
  written : List α
  finished : Bool
  deriving DecidableEq, Repr

/-- What writes timestamps at the end of a buffer of octets or of characters. Only
    the seconds never fail. -/
structure TimeWriter (α : Type) where
  seconds : Calendar.Timestamp → List α
  internet : Calendar.Timestamp → TimeAttempt α
  pattern : Calendar.Pattern → Calendar.Timestamp → TimeAttempt α

namespace TimeWriter

def attempt (writer : TimeWriter α) : TimeRequest → TimeAttempt α
  | .seconds t => ⟨writer.seconds t, true⟩
  | .internet t => writer.internet t
  | .pattern p t => writer.pattern p t

/-- The buffer after an attempt at what is asked for, and whether it was finished.
    Where nothing is asked for there is none. -/
def write (writer : TimeWriter α) (request? : Option TimeRequest) (out : List α) :
    List α × Bool :=
  match request? with
  | some request => (out ++ (writer.attempt request).written, (writer.attempt request).finished)
  | none => (out, false)

/-- The writer that follows the calendar's own patterns and formats, where `units`
    gives what a buffer holds for a text. -/
def calendar (units : List Char → List α) : TimeWriter α where
  seconds t := units t.secondsText
  internet t :=
    match t.rfc3339? with
    | some cs => ⟨units cs, true⟩
    | none => ⟨[], false⟩
  pattern p t := ⟨units (p.format t), true⟩

end TimeWriter

/-- How a template writes the time: by a named layout, or by a pattern, which is missing
    where its text is none. -/
inductive TimeLayout where
  | named (layout : NamedTime)
  | custom (text : String) (pattern : Option Calendar.Pattern)
  deriving Repr

namespace TimeLayout

/-- The layout of the argument of a time verb. -/
def ofArgument (argument : Option (List Char)) : TimeLayout :=
  match argument with
  | none => named .standard
  | some cs =>
    match NamedTime.ofName? cs with
    | some layout => named layout
    | none => custom (String.ofList cs) (Calendar.Pattern.read? cs)

/-- The timestamp on the clock that the layout shows, if it has a date there. -/
def clock? (t : Calendar.Timestamp) : TimeLayout → Option Calendar.Timestamp
  | named layout => if layout.isUniversal then t.toUtc? else some t
  | custom _ _ => some t

/-- What a layout asks for. A pattern that was none asks for nothing. -/
def request? (t : Calendar.Timestamp) : TimeLayout → Option TimeRequest
  | named layout => layout.request? t
  | custom _ pattern => pattern.map (.pattern · t)

/-- The buffer with a timestamp in the default layout behind it, or else in seconds. -/
def renderStandard (writer : TimeWriter α) (t : Calendar.Timestamp) (out : List α) : List α :=
  let attempted := writer.write (NamedTime.standard.request? t) out
  if attempted.2 then attempted.1 else attempted.1.take out.length ++ writer.seconds t

/-- The buffer with a timestamp behind it: what the layout writes, unless it fails or
    writes nothing. There is none where the rendering stops, since the timestamp has no
    date on the clock of the layout. -/
def renderInto (writer : TimeWriter α) (layout : TimeLayout) (t : Calendar.Timestamp)
    (out : List α) : Option (List α) :=
  (layout.clock? t).map fun shown =>
    let attempted := writer.write (layout.request? shown) out
    if attempted.2 ∧ out.length < attempted.1.length then attempted.1
    else renderStandard writer t (attempted.1.take out.length)

/-- The text of a timestamp, unless the rendering stops. -/
def render? (layout : TimeLayout) (t : Calendar.Timestamp) : Option String :=
  (layout.renderInto (.calendar id) t []).map String.ofList

/-- The text of a timestamp, which is empty where the rendering stops. -/
def render (layout : TimeLayout) (t : Calendar.Timestamp) : String := (layout.render? t).getD ""

/-- How many octets a time is expected to have. -/
def estimate : TimeLayout → Nat
  | named _ => 64
  | custom s _ => max 64 (2 * s.utf8ByteSize)

end TimeLayout

end Logbook
