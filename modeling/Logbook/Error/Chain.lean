import Logbook.Error.Recorded

/-!
# Chains of errors

A chain of errors, of which each was caused by the next. The last one may be a
recorded error. `Chain.recordInto` records a whole chain as if its plain errors
had been wrapped around the recorded one.
-/

namespace Logbook

/-- A chain of errors, each caused by the next: the texts of plain errors, the
    outermost first, and the recorded error that caused the last of them, if
    there is one. -/
structure Chain where
  links : List String
  cause : Option RecordedError
  deriving Inhabited

/-- How errors are recorded: the record that a chain makes of a cleared one. -/
abbrev ErrorRecorder := Chain → Record → Record

namespace Chain

/-- The texts of the chain, the outermost first. -/
def texts (c : Chain) : List String := c.links ++ (c.cause.map RecordedError.text).toList

/-- Records a chain by its links. A recorded error gives its whole record, and
    every plain error one message, each a frame further out than the one it was
    caused by. -/
def recordInto : ErrorRecorder := fun c into =>
  match c.cause, c.links.reverse with
  | some cause, outwards => outwards.foldl Record.wrap cause.record
  | none, [] => into
  | none, innermost :: outwards => outwards.foldl Record.wrap (into.addMessage innermost)

end Chain

end Logbook
