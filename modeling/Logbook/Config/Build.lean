import Logbook.Config.Json
import Logbook.Router.Basic
import Logbook.Sink.Ending
import Logbook.Structured
import Logbook.Text.Utf8

/-!
# Building configured routers

A configuration is read from a text or from octets, and a router is built by it.
Colors are compiled and files are opened group by group in their order, so the
first fault of a configuration is the one that is reported.
-/

namespace Logbook.Config

/-- Why a configuration cannot be read or a router not be built by it. -/
inductive Fault where
  | parse (error : Json.ReadError)
  | read (failure : Failure)
  | color (level : Level) (error : ColorError)
  | openFile (path : String) (failure : Failure)
  | router (error : BuildError)

namespace Fault

/-- The text of an error. -/
def message : Fault → String
  | parse .truncated => "invalid router configuration: the text ends too early"
  | parse .malformed => "invalid router configuration: the text is no JSON"
  | parse (.unsuitable message) => "invalid router configuration: " ++ message
  | read failure => "failed to read router configuration: " ++ failure.message
  | color level error => "invalid color for level " ++ level.name ++ ": " ++ error.message
  | openFile path failure => "failed to open log file " ++ path ++ ": " ++ failure.message
  | router error => error.message

end Fault

/-- The failure of octets that are no text. -/
def invalidText : Failure := ⟨.invalidData, "stream did not contain valid UTF-8"⟩

/-- The configuration of a text. -/
def Document.ofText (s : String) : Except Fault Document :=
  (Document.read s).mapError .parse

/-- The configuration of a text that is given by its octets. -/
def Document.ofOctets (bytes : List UInt8) : Except Fault Document :=
  match Text.Utf8.decode? bytes with
  | some cs => Document.ofText (String.ofList cs)
  | none => .error (.read invalidText)

/-- The sinks that a configuration can name: the standard streams, and files,
    which are opened for appending. -/
structure Outlets (σ ω : Type) where
  stdout : σ
  stderr : σ
  openFile : String → ω → Except Failure (σ × ω)

/-- The colors of levels with those of a group put over them. -/
def overlay (colors : ColorTable) : List (Level × String) → Except Fault ColorTable
  | [] => .ok colors
  | (level, spec) :: rest =>
    match colors.set level spec with
    | .ok colors => overlay colors rest
    | .error e => .error (.color level e)

def GroupChoice.encode (d : GroupChoice) : Except Fault Encoder :=
  match d.encoder with
  | .structured => .ok (.ofText (Structured.encode ⟨if d.flattenFields then .flat else .list, d.keepZeros⟩))
  | .template s => do
    let colors ← overlay .standard d.levelColors
    .ok (.ofText (Template.ofText s ⟨colors, d.keepZeros⟩).encode)

/-- Opens a sink. Events are made lines in a file, and go to a stream as they are. -/
def SinkChoice.openSink (o : Outlets σ ω) (w : ω) :
    SinkChoice → Except Fault (LinedSink σ × ω)
  | .stdout => .ok (⟨o.stdout, .verbatim⟩, w)
  | .stderr => .ok (⟨o.stderr, .verbatim⟩, w)
  | .file path =>
    match o.openFile path w with
    | .ok (sink, w) => .ok (⟨sink, .newline⟩, w)
    | .error failure => .error (.openFile path failure)

/-- Opens sinks in their order. -/
def openSinks (o : Outlets σ ω) : List SinkChoice → ω → Except Fault (List (LinedSink σ) × ω)
  | [], w => .ok ([], w)
  | sink :: rest, w => do
    let (first, w) ← sink.openSink o w
    let (others, w) ← openSinks o rest w
    .ok (first :: others, w)

def GroupChoice.steps (o : Outlets σ ω) (d : GroupChoice) (w : ω) :
    Except Fault (List (PlanStep (LinedSink σ)) × ω) := do
  let encode ← d.encode
  let (sinks, w) ← openSinks o d.sinks w
  .ok ([.encoder encode, .threshold d.threshold] ++
    (d.traceThreshold.map PlanStep.traceThreshold).toList ++ [.sinks sinks], w)

def planSteps (o : Outlets σ ω) :
    List GroupChoice → ω → Except Fault (List (PlanStep (LinedSink σ)) × ω)
  | [], w => .ok ([], w)
  | d :: rest, w => do
    let (steps, w) ← d.steps o w
    let (others, w) ← planSteps o rest w
    .ok (steps ++ others, w)

/-- The router with the destinations and the capacity of a configuration. -/
def Document.build (o : Outlets σ ω) (c : Document) (r : Router (LinedSink σ)) (w : ω) :
    Except Fault (Router (LinedSink σ) × Diagnostic × ω) := do
  let r := match c.poolCapacity with
    | some capacity => r.withPool capacity
    | none => r
  let (steps, w) ← planSteps o c.destinations w
  let (r, diagnostic) ← (r.build steps).mapError .router
  .ok (r, diagnostic, w)

end Logbook.Config
