import Logbook.Level

/-!
# Configurations

The destinations of a router as a configuration names them: for every group an
encoder, levels, colors of levels and sinks. `withColor` keeps the colors in the
order of the levels.
-/

namespace Logbook.Config

/-- An encoder by name: structured lines, or a template, which may be blank. -/
inductive EncoderChoice where
  | structured
  | template (text : String)
  deriving DecidableEq, Repr

/-- A sink by name: one of the two standard streams, or the file of a path. -/
inductive SinkChoice where
  | stdout
  | stderr
  | file (path : String)
  deriving DecidableEq, Repr

/-- A group of destinations. `flattenFields` is for structured lines and
    `levelColors` for templates. -/
structure GroupChoice where
  encoder : EncoderChoice
  threshold : Level
  traceThreshold : Option Level
  levelColors : List (Level × String)
  keepZeros : Bool
  flattenFields : Bool
  sinks : List SinkChoice
  deriving DecidableEq, Repr

/-- A whole configuration. -/
structure Document where
  poolCapacity : Option Nat
  destinations : List GroupChoice
  deriving DecidableEq, Repr

/-- Puts the color of a level in its place among the others. A color that the
    level had before is replaced. -/
def withColor (level : Level) (spec : String) : List (Level × String) → List (Level × String)
  | [] => [(level, spec)]
  | (other, otherSpec) :: rest =>
    if level.value < other.value then (level, spec) :: (other, otherSpec) :: rest
    else if level = other then (level, spec) :: rest
    else (other, otherSpec) :: withColor level spec rest

end Logbook.Config
