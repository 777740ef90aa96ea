import Logbook.Sink.Basic

/-!
# Sinks with a log of their calls

`SinkBackend.logged` are the sinks of another backend in a world that holds, next
to the world of that backend, every call so far with what came of it. What a
router does to its sinks is said as a statement about this log.
-/

namespace Logbook

/-- What is asked of a sink. -/
inductive SinkRequest (σ : Type) where
  | write (sink : σ) (bytes : List UInt8)
  | flush (sink : σ)

/-- A call of a sink, and the failure that came of it. -/
structure SinkCall (σ : Type) where
  request : SinkRequest σ
  failure : Option Failure

/-- The octets that were written, and the sink that got them. -/
def SinkCall.written? (c : SinkCall σ) : Option (σ × List UInt8) :=
  match c.request with
  | .write sink bytes => some (sink, bytes)
  | .flush _ => none

/-- The same sinks. Their calls are logged beside the world. -/
def SinkBackend.logged (b : SinkBackend σ ω) : SinkBackend σ (ω × List (SinkCall σ)) where
  write sink bytes w :=
    let (failure, world) := b.write sink bytes w.1
    (failure, world, w.2 ++ [⟨.write sink bytes, failure⟩])
  flush sink w :=
    let (failure, world) := b.flush sink w.1
    (failure, world, w.2 ++ [⟨.flush sink, failure⟩])

end Logbook
