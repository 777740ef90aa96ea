import Logbook.Event.Step
import Logbook.Router.Dispatch
import Logbook.Event.Pool
import Logbook.Router.Plan

/-!
# Routers

A router has a table of destinations, once it is built, and a pool of events. It
is built once and for all, by a plan that has at least one sink; any other plan
leaves it as it was. Events of a level that no group accepts are not even encoded.
-/

namespace Logbook

/-- Why a router cannot be built. -/
inductive BuildError where
  | alreadyBuilt
  | noDestinations
  deriving DecidableEq, Repr

def BuildError.message : BuildError → String
  | alreadyBuilt => "router destinations were already built"
  | noDestinations => "router has no destinations"

/-- A router: its table, its pool, the frames that a capture finds, and how it
    records errors. -/
structure Router (σ : Type) where
  table : Option (Table σ)
  pool : Pool
  captured : Trace
  recorder : ErrorRecorder

namespace Router

/-- The router without destinations. -/
def new (captured : Trace) (recorder : ErrorRecorder) : Router σ :=
  ⟨none, .new Pool.standardCapacity, captured, recorder⟩

/-- The router with an empty pool of another capacity. -/
def withPool (r : Router σ) (capacity : Nat) : Router σ :=
  { r with pool := .new capacity }

/-- The router is built. -/
def hasTable (r : Router σ) : Bool := r.table.isSome

/-- An event of the level reaches the groups. -/
def enabled (r : Router σ) (level : Level) : Bool := r.table.any fun t => level.passes t.threshold

/-- The router with the groups as its destinations, and the report of it. -/
def install (r : Router σ) (groups : List (Group σ)) : Except BuildError (Router σ × Diagnostic) :=
  if r.hasTable then .error .alreadyBuilt
  else if groups.all fun g => g.slots.isEmpty then .error .noDestinations
  else
    let table := Table.ofGroups groups
    .ok ({ r with table := some table },
      .routerBuilt table.groups.length table.sinkTotal table.threshold)

/-- The router with the destinations of a plan. -/
def build (r : Router σ) (steps : List (PlanStep σ)) :
    Except BuildError (Router σ × Diagnostic) :=
  r.install (Plan.ofSteps steps).finish

/-- Dispatches an event. A router without destinations only reports it. -/
def dispatch (b : SinkBackend σ ω) (r : Router σ) (e : Event) (w : ω) : Router σ × Delivery σ ω :=
  match r.table with
  | none => (r, ⟨[], e, 0, w, [.notBuilt e.level]⟩)
  | some t =>
    let (t, delivery) := t.dispatch b r.captured e w
    ({ r with table := some t }, delivery)

/-- Reports the first failure of a write that a sink holds, or flushes the sinks. -/
def flush (b : SinkBackend σ ω) (r : Router σ) (w : ω) : Router σ × GroupsFlush σ ω :=
  match r.table with
  | none => (r, ⟨[], w, [], none⟩)
  | some t =>
    let (t, flushed) := t.flush b w
    ({ r with table := some t }, flushed)

/-- Takes an event from the pool. -/
def acquire (r : Router σ) (level : Level) (time : Calendar.Timestamp) : Event × Router σ :=
  let (e, pool) := r.pool.acquire level time
  (e, { r with pool })

/-- Gives an event back to the pool. -/
def release (r : Router σ) (e : Event) : Router σ := { r with pool := r.pool.release e }

/-- The event with a chain of errors, recorded as the router does it. -/
def attach (r : Router σ) (e : Event) (chain : Chain) : Event :=
  e.attach r.recorder chain

end Router

end Logbook
