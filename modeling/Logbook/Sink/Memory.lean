import Logbook.Sink.Basic
import Logbook.Text.Split
import Logbook.Text.Utf8

/-!
# Sinks in memory

A buffer that holds what was written to it and counts the writes. It can be read
as text, in which ill-formed sequences are replaced, and as lines.
-/

namespace Logbook

/-- What was written, and how many times. -/
structure Memory where
  contents : List UInt8
  writes : Nat
  deriving DecidableEq, Repr, Inhabited

namespace Memory

/-- The empty buffer. -/
def empty : Memory := ⟨[], 0⟩

/-- The buffer after a write. -/
def write (m : Memory) (bytes : List UInt8) : Memory := ⟨m.contents ++ bytes, m.writes + 1⟩

/-- The contents, and the buffer without them. -/
def take (m : Memory) : List UInt8 × Memory := (m.contents, { m with contents := [] })

def text (m : Memory) : String := String.ofList (Text.Utf8.decodeLossy m.contents)

/-- The lines of the contents. -/
def lines (m : Memory) : List String :=
  (Text.lines (Text.Utf8.decodeLossy m.contents)).map String.ofList

/-- A buffer as the only sink. It never fails. -/
def backend : SinkBackend Unit Memory where
  write _ bytes m := (none, m.write bytes)
  flush _ m := (none, m)

end Memory

end Logbook
