import Logbook.Sink.Basic

/-!
# Endings of events

Before a sink takes an event, something may be done to its end: it is made a
line, by a line feed where it lacks one, or it is left as it is. Either way the
sink sees one write for each event.
-/

namespace Logbook

/-- What is done to the end of an event. -/
inductive Ending where
  | newline
  | verbatim
  deriving DecidableEq, Repr

namespace Ending

/-- What is done where nothing else is asked for. -/
def standard : Ending := newline

/-- Events are made lines. -/
def endsLines : Ending → Bool
  | newline => true
  | verbatim => false

/-- The octet of a line feed. -/
def lineFeed : UInt8 := 10

/-- The octets that a sink gets for an event. -/
def terminate (ending : Ending) (bytes : List UInt8) : List UInt8 :=
  if ending.endsLines ∧ bytes.getLast? ≠ some lineFeed then bytes ++ [lineFeed] else bytes

end Ending

/-- A sink with what it does to the end of an event. -/
structure LinedSink (σ : Type) where
  inner : σ
  ending : Ending
  deriving DecidableEq, Repr

/-- The action of sinks that are told what to do to the end of an event. -/
def SinkBackend.lined (b : SinkBackend σ ω) : SinkBackend (LinedSink σ) ω where
  write s bytes w := b.write s.inner (s.ending.terminate bytes) w
  flush s w := b.flush s.inner w

end Logbook
