import Logbook.Sink.Basic
import Logbook.Template.Encoder

/-!
# Destination tables

A table holds groups of destinations in the order of their plan. A group
has an encoder, the least severe level that it accepts, perhaps the least severe
level for which it wants a stack trace, and its sinks. Beside every sink stands
the first failure of a write to it that was not reported yet.
-/

namespace Logbook

/-- A sink with the failure that it holds. -/
structure Slot (σ : Type) where
  sink : σ
  failure : Option Failure

/-- A slot that holds no failure. -/
def Slot.new (sink : σ) : Slot σ := ⟨sink, none⟩

/-- A group of destinations. -/
structure Group (σ : Type) where
  encode : Encoder
  threshold : Level
  traceThreshold : Option Level
  slots : List (Slot σ)

namespace Group

def sinks (g : Group σ) : List σ := g.slots.map Slot.sink

/-- An event of the level is written to at least one sink of the group. -/
def isReached (g : Group σ) (level : Level) : Bool :=
  level.passes g.threshold && !g.slots.isEmpty

/-- The group wants a stack trace of an event of the level. -/
def wantsTrace (g : Group σ) (level : Level) : Bool := g.traceThreshold.any level.passes

end Group

/-- The groups of a router, and the loosest of their levels. -/
structure Table (σ : Type) where
  groups : List (Group σ)
  threshold : Level
  traceThreshold : Option Level

namespace Table

/-- The least severe of some levels. -/
def loosest : List Level → Option Level
  | [] => none
  | level :: rest => some (rest.foldl Level.max level)

/-- The table of some groups. -/
def ofGroups (groups : List (Group σ)) : Table σ where
  groups := groups
  threshold := (loosest (groups.map Group.threshold)).getD .emergency
  traceThreshold := loosest (groups.filterMap Group.traceThreshold)

def sinkTotal (t : Table σ) : Nat := (t.groups.flatMap Group.slots).length

end Table

end Logbook
