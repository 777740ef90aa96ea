import Logbook.Text.Number

/-!
# Stack frames

A frame of a call stack: the full path of a function, and the file and the line
where it was called. A path has segments that two colons separate; the last
segment is the function's own name and the others are its package.
-/

namespace Logbook

/-- A frame of a call stack. -/
structure Frame where
  function : String
  file : String
  line : Nat
  deriving DecidableEq, Repr, Inhabited

namespace Frame

/-- The package and the own name of the function. -/
def splitFunction (f : Frame) : Option (List Char × List Char) :=
  Text.splitLastSeq [':', ':'] f.function.toList

/-- The function's own name, the last segment of its path. -/
def functionName (f : Frame) : String :=
  match f.splitFunction with
  | some (_, name) => String.ofList name
  | none => f.function

/-- The path of the package; empty for a function outside all packages. -/
def package (f : Frame) : String :=
  match f.splitFunction with
  | some (path, _) => String.ofList path
  | none => ""

/-- The file without its directories, which slashes of either direction end. -/
def fileName (f : Frame) : String :=
  String.ofList (f.file.toList.reverse.takeWhile fun c => c ≠ '/' ∧ c ≠ '\\').reverse

/-- The line in decimal digits. -/
def lineText (f : Frame) : String := String.ofList (Text.digits f.line)

/-- The function, and behind it the place of its call between parentheses. -/
def text (f : Frame) : String := f.function ++ " (" ++ f.file ++ ":" ++ f.lineText ++ ")"

end Frame

/-- A call stack, the innermost frame first. -/
abbrev Trace := List Frame

end Logbook
