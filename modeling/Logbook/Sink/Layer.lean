import Logbook.Sink.Ending

/-!
# Layers around sinks

What is done to the end of an event, and a pointer, stand around a sink in any
order and any number. Each layer makes sinks of the same kind again, so layers
are put around sinks one after another.
-/

namespace Logbook

/-- What may be put around a sink. -/
inductive SinkLayer where
  | ending (ending : Ending)
  | pointer (pointer : Pointer)
  deriving DecidableEq, Repr

/-- The sinks with a layer around each of them. -/
def SinkBackend.around (b : SinkBackend σ ω) : SinkLayer → SinkBackend σ ω
  | .ending ending => ⟨fun s => b.lined.write ⟨s, ending⟩, fun s => b.lined.flush ⟨s, ending⟩⟩
  | .pointer pointer =>
    ⟨fun s => b.pointed.write ⟨s, pointer⟩, fun s => b.pointed.flush ⟨s, pointer⟩⟩

/-- The sinks with layers around each of them, the outermost first. -/
def SinkBackend.layered (b : SinkBackend σ ω) (layers : List SinkLayer) : SinkBackend σ ω :=
  layers.foldr (fun layer inner => inner.around layer) b

end Logbook
