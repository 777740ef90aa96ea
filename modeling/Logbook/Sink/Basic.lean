import Logbook.Diagnostic

/-!
# Sinks

A sink takes the octets of one encoded event at a time. What a sink does to the
world outside is left open: `SinkBackend σ ω` says how the sinks of the type `σ`
act on a world of the type `ω`, and every action may fail. A sink may be named
by several groups of destinations, which then act on the same part of the world,
and it may be reached through a pointer.
-/

namespace Logbook

/-- How sinks act on the world. -/
structure SinkBackend (σ ω : Type) where
  /-- Writes the octets of one event. -/
  write : σ → List UInt8 → ω → Option Failure × ω
  /-- Hands on what is held back. -/
  flush : σ → ω → Option Failure × ω

/-- What a sink may be reached through. -/
inductive Pointer where
  | shared
  | owned
  | borrowed
  deriving DecidableEq, Repr

/-- A sink behind a pointer. -/
structure PointedSink (σ : Type) where
  target : σ
  pointer : Pointer
  deriving DecidableEq, Repr

/-- The action of sinks behind pointers: every pointer hands each call on. -/
def SinkBackend.pointed (b : SinkBackend σ ω) : SinkBackend (PointedSink σ) ω where
  write s bytes w := b.write s.target bytes w
  flush s w := b.flush s.target w

end Logbook
