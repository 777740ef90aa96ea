import Logbook.Router.Group

/-!
# Dispatching and flushing

An event goes to the groups that its level reaches, in their order, and within a
group to every sink. The first of these groups that wants a stack trace has one
captured if the event has none, and the groups behind it get the event with that
trace. A failing write never stops the others; its failure is kept beside the
sink until a flush reports it.
-/

namespace Logbook

/-- Sinks after some of them were acted on. -/
structure SlotsOutcome (σ ω : Type) where
  slots : List (Slot σ)
  world : ω
  diagnostics : List Diagnostic

/-- Writes one event to a slot, which keeps the first failure. -/
def Slot.write (b : SinkBackend σ ω) (group index : Nat) (bytes : List UInt8) (slot : Slot σ)
    (w : ω) : Slot σ × ω × List Diagnostic :=
  match b.write slot.sink bytes w, slot.failure with
  | (some failure, w), none =>
    ({ slot with failure := some failure }, w, [.writeFailed group index failure])
  | (_, w), _ => (slot, w, [])

/-- Writes one event to the slots of a group, of which the first has the given
    index. -/
def writeSlots (b : SinkBackend σ ω) (group : Nat) (bytes : List UInt8) :
    Nat → List (Slot σ) → ω → SlotsOutcome σ ω
  | _, [], w => ⟨[], w, []⟩
  | index, slot :: rest, w =>
    let (slot, w, diagnostics) := slot.write b group index bytes w
    let others := writeSlots b group bytes (index + 1) rest w
    ⟨slot :: others.slots, others.world, diagnostics ++ others.diagnostics⟩

/-- What a dispatch leaves: the groups with the failures that they hold, the event
    as it was written last, how often a stack was captured, and the world. -/
structure Delivery (σ ω : Type) where
  groups : List (Group σ)
  event : Event
  captures : Nat
  world : ω
  diagnostics : List Diagnostic

/-- The event with the captured frames as its own trace. -/
def Event.capture (e : Event) (captured : Trace) : Event :=
  { e with message := e.message.capture captured }

/-- A stack is captured before the group gets the event. -/
def Group.captures (g : Group σ) (e : Event) : Bool := g.wantsTrace e.level && !e.hasTrace

/-- Delivers an event to groups, of which the first has the given index. A capture
    appends the frames that are given. -/
def deliver (b : SinkBackend σ ω) (captured : Trace) :
    Nat → List (Group σ) → Event → ω → Delivery σ ω
  | _, [], e, w => ⟨[], e, 0, w, []⟩
  | index, g :: rest, e, w =>
    if g.isReached e.level then
      let captures := g.captures e
      let e := if captures then e.capture captured else e
      let written := writeSlots b index (g.encode e) 0 g.slots w
      let others := deliver b captured (index + 1) rest e written.world
      { others with
        groups := { g with slots := written.slots } :: others.groups
        captures := others.captures + if captures then 1 else 0
        diagnostics := written.diagnostics ++ others.diagnostics }
    else
      let others := deliver b captured (index + 1) rest e w
      { others with groups := g :: others.groups }

namespace Table

/-- Dispatches an event. Its level has to pass the loosest level of the table. -/
def dispatch (b : SinkBackend σ ω) (captured : Trace) (t : Table σ) (e : Event) (w : ω) :
    Table σ × Delivery σ ω :=
  if e.level.passes t.threshold then
    let delivery := deliver b captured 0 t.groups e w
    ({ t with groups := delivery.groups }, delivery)
  else (t, ⟨t.groups, e, 0, w, []⟩)

end Table

/-- What a flush of some slots leaves, and the failure that it stopped at. -/
structure SlotsFlush (σ ω : Type) extends SlotsOutcome σ ω where
  failure : Option Failure

/-- Flushes slots, of which the first has the given index. A failure that a slot
    holds is reported and no longer held. The first failure ends the flush. -/
def flushSlots (b : SinkBackend σ ω) (group : Nat) : Nat → List (Slot σ) → ω → SlotsFlush σ ω
  | _, [], w => ⟨⟨[], w, []⟩, none⟩
  | index, slot :: rest, w =>
    match slot.failure with
    | some failure => ⟨⟨{ slot with failure := none } :: rest, w, []⟩, some failure⟩
    | none =>
      match b.flush slot.sink w with
      | (some failure, w) => ⟨⟨slot :: rest, w, [.flushFailed group index failure]⟩, some failure⟩
      | (none, w) =>
        let others := flushSlots b group (index + 1) rest w
        { others with slots := slot :: others.slots }

/-- What a flush of some groups leaves, and the failure that it stopped at. -/
structure GroupsFlush (σ ω : Type) where
  groups : List (Group σ)
  world : ω
  diagnostics : List Diagnostic
  failure : Option Failure

/-- Flushes groups, of which the first has the given index. -/
def flushGroups (b : SinkBackend σ ω) : Nat → List (Group σ) → ω → GroupsFlush σ ω
  | _, [], w => ⟨[], w, [], none⟩
  | index, g :: rest, w =>
    let flushed := flushSlots b index 0 g.slots w
    let g := { g with slots := flushed.slots }
    match flushed.failure with
    | some failure => ⟨g :: rest, flushed.world, flushed.diagnostics, some failure⟩
    | none =>
      let others := flushGroups b (index + 1) rest flushed.world
      { others with
        groups := g :: others.groups
        diagnostics := flushed.diagnostics ++ others.diagnostics }

namespace Table

/-- Flushes every sink in order up to the first failure. -/
def flush (b : SinkBackend σ ω) (t : Table σ) (w : ω) : Table σ × GroupsFlush σ ω :=
  let flushed := flushGroups b 0 t.groups w
  ({ t with groups := flushed.groups }, flushed)

end Table

end Logbook
