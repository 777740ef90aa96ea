import Logbook.Router.Group

/-!
# Plans of destinations

The destinations of a router are planned step by step. An encoder begins a new
group if the current one has an encoder or a sink; the other steps belong to the
current group. A group that is given no encoder has the standard template.
-/

namespace Logbook

inductive PlanStep (σ : Type) where
  | encoder (encode : Encoder)
  | threshold (level : Level)
  | traceThreshold (level : Level)
  | sinks (sinks : List σ)

/-- A group that is not finished yet. -/
structure GroupDraft (σ : Type) where
  encoder : Option Encoder
  threshold : Level
  traceThreshold : Option Level
  sinks : List σ

namespace GroupDraft

/-- The group before any step. -/
def new : GroupDraft σ := ⟨none, .debug, none, []⟩

def isBegun (p : GroupDraft σ) : Bool := p.encoder.isSome || !p.sinks.isEmpty

def finish (p : GroupDraft σ) : Group σ where
  encode := p.encoder.getD (.ofText Template.standard.encode)
  threshold := p.threshold
  traceThreshold := p.traceThreshold
  slots := p.sinks.map Slot.new

end GroupDraft

/-- The finished groups of a plan and its current one. -/
structure Plan (σ : Type) where
  groups : List (Group σ)
  current : GroupDraft σ

namespace Plan

/-- The plan before any step. -/
def start : Plan σ := ⟨[], .new⟩

/-- The plan after a step. -/
def apply (r : Plan σ) : PlanStep σ → Plan σ
  | .encoder encode =>
    if r.current.isBegun then
      ⟨r.groups ++ [r.current.finish], { GroupDraft.new with encoder := some encode }⟩
    else { r with current := { r.current with encoder := some encode } }
  | .threshold level => { r with current := { r.current with threshold := level } }
  | .traceThreshold level => { r with current := { r.current with traceThreshold := some level } }
  | .sinks sinks => { r with current := { r.current with sinks := r.current.sinks ++ sinks } }

/-- The plan that a list of steps makes. -/
def ofSteps (steps : List (PlanStep σ)) : Plan σ := steps.foldl apply start

/-- All groups. The current one counts only if it has a sink. -/
def finish (r : Plan σ) : List (Group σ) :=
  if r.current.sinks.isEmpty then r.groups else r.groups ++ [r.current.finish]

end Plan

end Logbook
