import Logbook.Level
import Logbook.Json.Value

/-!
# Diagnostics

What the library reports about its own work: text of a template that could not
be taken for a verb, compiled templates, routers that were built or are not
built yet, and destinations that failed. Each diagnostic has a target, a
severity, a name and named values. They never become log events themselves.
-/

namespace Logbook

/-- Which sort of failure a destination reports. -/
inductive FailureKind where
  | notFound
  | permissionDenied
  | brokenPipe
  | notADirectory
  | isADirectory
  | invalidFilename
  | invalidInput
  | invalidData
  | other
  deriving DecidableEq, Repr

/-- The name of a sort of failure. -/
def FailureKind.name : FailureKind → String
  | notFound => "NotFound"
  | permissionDenied => "PermissionDenied"
  | brokenPipe => "BrokenPipe"
  | notADirectory => "NotADirectory"
  | isADirectory => "IsADirectory"
  | invalidFilename => "InvalidFilename"
  | invalidInput => "InvalidInput"
  | invalidData => "InvalidData"
  | other => "Other"

/-- A failure outside the program. -/
structure Failure where
  kind : FailureKind
  message : String
  deriving DecidableEq, Repr

/-- Why text between braces is no verb. -/
inductive VerbFault where
  | unterminated
  | unknownAlias
  | repeatedVerb
  | badArguments
  deriving DecidableEq, Repr

def VerbFault.name : VerbFault → String
  | unterminated => "unterminated"
  | unknownAlias => "unknown_alias"
  | repeatedVerb => "repeated_verb"
  | badArguments => "bad_arguments"

/-- A report of the library about its own work. -/
inductive Diagnostic where
  | verbDegraded (verb : String) (fault : VerbFault)
  | templateCompiled (instructions size : Nat)
  | notBuilt (level : Level)
  | routerBuilt (groups sinks : Nat) (threshold : Level)
  | writeFailed (group sink : Nat) (failure : Failure)
  | flushFailed (group sink : Nat) (failure : Failure)
  deriving DecidableEq, Repr

namespace Diagnostic

/-- The part of the library that reports. -/
def target : Diagnostic → String
  | verbDegraded .. | templateCompiled .. => "weft::template"
  | notBuilt .. | routerBuilt .. => "weft::router"
  | writeFailed .. | flushFailed .. => "weft::sink"

/-- How severe the report is. -/
def severity : Diagnostic → String
  | verbDegraded .. | routerBuilt .. => "DEBUG"
  | templateCompiled .. | notBuilt .. => "TRACE"
  | writeFailed .. | flushFailed .. => "WARN"

/-- The name of the report. -/
def name : Diagnostic → String
  | verbDegraded .. => "template_verb_degraded"
  | templateCompiled .. => "template_compiled"
  | notBuilt .. => "router_not_built"
  | routerBuilt .. => "router_built"
  | writeFailed .. => "sink_write_failed"
  | flushFailed .. => "sink_flush_failed"

/-- The named values of the report. -/
def values : Diagnostic → List (String × Json)
  | verbDegraded verb fault => [("verb", .text verb), ("reason", .text fault.name)]
  | templateCompiled instructions size =>
    [("opcodes", .integer instructions), ("predicted_len", .integer size)]
  | notBuilt level => [("level", .text level.name)]
  | routerBuilt groups sinks threshold =>
    [("groups", .integer groups), ("sinks", .integer sinks), ("min_level", .text threshold.name)]
  | writeFailed group sink failure | flushFailed group sink failure =>
    [("group", .integer group), ("sink", .integer sink), ("error", .text failure.message)]

end Diagnostic

end Logbook
