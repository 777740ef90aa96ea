import Logbook.Router.Basic

/-!
# Sessions

A program in the middle of its work with a router: the router itself, the events
that were taken from the pool and are still held, the world of the sinks, how
often a stack was captured, and the diagnostics so far. Any number of events can
be held at once; each is named by its place among them, and leaves that place
when it is sent or dropped. `Session.run` is a whole history.
-/

namespace Logbook

/-- A router at work. -/
structure Session (σ ω : Type) where
  router : Router σ
  held : List Event
  world : ω
  captures : Nat
  diagnostics : List Diagnostic

namespace Session

/-- A session at its beginning. -/
def start (router : Router σ) (w : ω) : Session σ ω := ⟨router, [], w, 0, []⟩

/-- Builds the router by a plan. -/
def build (s : Session σ ω) (steps : List (PlanStep σ)) : Except BuildError (Session σ ω) :=
  (s.router.build steps).map fun (router, diagnostic) =>
    { s with router, diagnostics := s.diagnostics ++ [diagnostic] }

/-- Dispatches an event; yields the event as it was written last. -/
def dispatch (b : SinkBackend σ ω) (s : Session σ ω) (e : Event) : Session σ ω × Event :=
  let (router, delivery) := s.router.dispatch b e s.world
  ({ s with
      router
      world := delivery.world
      captures := s.captures + delivery.captures
      diagnostics := s.diagnostics ++ delivery.diagnostics }, delivery.event)

/-- Flushes the sinks; yields the failure that it stopped at. -/
def flush (b : SinkBackend σ ω) (s : Session σ ω) : Session σ ω × Option Failure :=
  let (router, flushed) := s.router.flush b s.world
  ({ s with
      router
      world := flushed.world
      diagnostics := s.diagnostics ++ flushed.diagnostics }, flushed.failure)

/-- Takes an event from the pool and holds it behind the others. -/
def acquire (s : Session σ ω) (level : Level) (time : Calendar.Timestamp) : Session σ ω :=
  let (e, router) := s.router.acquire level time
  { s with router, held := s.held ++ [e] }

/-- Applies operations to the event that is held at a place. Errors are attached as
    the router records them. -/
def populate (s : Session σ ω) (place : Nat) (steps : List Event.Step) : Session σ ω :=
  { s with held := s.held.modify place fun e => e.run s.router.recorder steps }

/-- Gives the event at a place back to the pool. -/
def drop (s : Session σ ω) (place : Nat) : Session σ ω :=
  match s.held[place]? with
  | some e => { s with held := s.held.eraseIdx place, router := s.router.release e }
  | none => s

/-- Dispatches the event at a place and gives it back to the pool. -/
def send (b : SinkBackend σ ω) (s : Session σ ω) (place : Nat) : Session σ ω :=
  match s.held[place]? with
  | some e =>
    let (s, e) := s.dispatch b e
    { s with held := s.held.eraseIdx place, router := s.router.release e }
  | none => s

/-- The place of the event that was taken last. -/
def lastPlace (s : Session σ ω) : Nat := s.held.length - 1

/-- Takes an event, populates it, and holds it behind the others. -/
def hold (s : Session σ ω) (level : Level) (time : Calendar.Timestamp)
    (steps : List Event.Step) : Session σ ω :=
  let s := s.acquire level time
  s.populate s.lastPlace steps

/-- Logs one event: takes it, populates it, dispatches it, and gives it back. -/
def log (b : SinkBackend σ ω) (s : Session σ ω) (level : Level) (time : Calendar.Timestamp)
    (steps : List Event.Step) : Session σ ω :=
  let s := s.hold level time steps
  s.send b s.lastPlace

/-- What a program does with a built router and the events that it holds. In
    between it proceeds to places where a capture finds other frames. -/
inductive Step where
  | proceed (captured : Trace)
  | acquire (level : Level) (time : Calendar.Timestamp)
  | populate (place : Nat) (steps : List Event.Step)
  | send (place : Nat)
  | drop (place : Nat)
  | dispatch (event : Event)
  | flush

/-- The session after a step. -/
def apply (b : SinkBackend σ ω) (s : Session σ ω) : Step → Session σ ω
  | .proceed captured => { s with router := { s.router with captured } }
  | .acquire level time => s.acquire level time
  | .populate place steps => s.populate place steps
  | .send place => s.send b place
  | .drop place => s.drop place
  | .dispatch e => (s.dispatch b e).1
  | .flush => (s.flush b).1

/-- The session after a list of steps. -/
def run (b : SinkBackend σ ω) (s : Session σ ω) (steps : List Step) : Session σ ω :=
  steps.foldl (apply b) s

end Session

end Logbook
