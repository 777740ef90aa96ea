import Logbook.Event.Basic

/-!
# Event pools

A pool keeps cleared events for later use, up to a capacity. An event that is
taken from it is as good as a new one.
-/

namespace Logbook

/-- Idle events, the one that waits longest first. -/
structure Pool where
  capacity : Nat
  idle : List Event
  deriving Inhabited

namespace Pool

/-- The capacity of a pool that is not told otherwise. -/
def standardCapacity : Nat := 64

/-- The empty pool of a capacity, which is at least one. -/
def new (capacity : Nat) : Pool := ⟨max capacity 1, []⟩

/-- Takes an event from the pool, or makes one, with the given level and time. -/
def acquire (p : Pool) (level : Level) (time : Calendar.Timestamp) : Event × Pool :=
  match p.idle with
  | e :: rest => ((e.withLevel level).withTime time, { p with idle := rest })
  | [] => (.new level time, p)

/-- Clears an event and keeps it, unless the pool is full. -/
def release (p : Pool) (e : Event) : Pool :=
  if p.idle.length < p.capacity then { p with idle := p.idle ++ [e.clear] } else p

end Pool

end Logbook
