import Logbook.Stack.Frame
import Logbook.Text.Blank
import Logbook.Text.Number

/-!
# Printed backtraces

A printed backtrace has a line for each symbol, with its index before it, and
after that line, for a symbol whose place in the sources is known, a line that
begins with `at` and gives the file, the line and the column. `extend` reads
the frames of such a text behind given ones. Symbols of the runtime and of the
logging machinery are left out, and so are symbols without a place.
-/

namespace Logbook.Backtrace

/-- The beginnings of the symbols that are left out. -/
def omittedBeginnings : List String :=
  ["std::", "core::", "alloc::", "__rust", "rust_begin_unwind", "record::frame::",
    "<record::frame::", "logging::router::", "logging::pool::", "<logging::pool::",
    "logging::tracing_bridge::", "<logging::tracing_bridge::", "tracing::", "tracing_core::",
    "tracing_subscriber::", "<tracing_subscriber::"]

/-- The symbol is left out. -/
def isOmitted (symbol : List Char) : Bool :=
  omittedBeginnings.any fun start => start.toList.isPrefixOf symbol

/-- The character is a hexadecimal digit. -/
def isHexDigit (c : Char) : Bool :=
  c.isDigit || ('a' ≤ c && c ≤ 'f') || ('A' ≤ c && c ≤ 'F')

/-- The symbol without the hash that a compiler may have put behind it: sixteen
    hexadecimal digits after two colons and the letter h. -/
def dropHash (symbol : List Char) : List Char :=
  match Text.splitLastSeq [':', ':', 'h'] symbol with
  | some (path, hash) => if hash.length = 16 ∧ hash.all isHexDigit then path else symbol
  | none => symbol

/-- A number of at most thirty-two bits. -/
def readNumber? (cs : List Char) : Option Nat := Text.readUnsigned? UInt32.size cs

/-- The file and the line of a place. The last number is the column if there is
    another one before it. -/
def readPlace? (place : List Char) : Option (List Char × Nat) := do
  let (rest, last) ← Text.splitLast ':' place
  let number ← readNumber? last
  match Text.splitLast ':' rest with
  | some (file, line) =>
    match readNumber? line with
    | some n => some (file, n)
    | none => some (rest, number)
  | none => some (rest, number)

/-- What a line without its blanks says. -/
inductive Line where
  | place (text : List Char)
  | symbol (text : List Char)
  | other
  deriving DecidableEq, Repr

/-- What a line says. A symbol stands behind its index, a colon and a blank. -/
def Line.of (line : List Char) : Line :=
  let trimmed := Text.trim line
  match ['a', 't', ' '].isPrefixOf? trimmed with
  | some rest => .place rest
  | none =>
    match Text.splitFirstSeq [':', ' '] trimmed with
    | some (index, name) =>
      if index ≠ [] ∧ index.all Char.isDigit then .symbol (dropHash name) else .other
    | none => .other

/-- What reading keeps between two lines: the symbol that waits for its place,
    and the frames so far. -/
structure State where
  waiting : Option (List Char)
  frames : Trace

/-- Reads one line. A place ends the wait of a symbol, whether it can be read or
    not, and a symbol that is left out ends it without a frame. -/
def step (state : State) (line : List Char) : State :=
  match Line.of line with
  | .place text =>
    match state.waiting with
    | none => state
    | some symbol =>
      match readPlace? text with
      | some (file, n) =>
        ⟨none, state.frames ++ [⟨String.ofList symbol, String.ofList file, n⟩]⟩
      | none => ⟨none, state.frames⟩
  | .symbol text => ⟨if isOmitted text then none else some text, state.frames⟩
  | .other => state

/-- The given frames, and behind them those that a printed backtrace shows. -/
def extend (given : Trace) (text : String) : Trace :=
  ((Text.lines text.toList).foldl step ⟨none, given⟩).frames

/-- The frames that a printed backtrace shows. -/
def frames (text : String) : Trace := extend [] text

end Logbook.Backtrace
