import Logbook.Level
import Logbook.Template.Color

/-!
# Colors of levels

A table that gives some levels a control sequence. `set` compiles a
specification into it and changes nothing where the specification is an error.
-/

namespace Logbook

/-- The control sequences of levels. -/
structure ColorTable where
  get : Level → Option String

namespace ColorTable

/-- The table without any color. -/
def none : ColorTable := ⟨fun _ => Option.none⟩

/-- The table with another entry for a level. -/
def put (table : ColorTable) (level : Level) (entry : Option String) : ColorTable :=
  ⟨fun other => if other = level then entry else table.get other⟩

/-- The table without a color for a level. -/
def clear (table : ColorTable) (level : Level) : ColorTable := table.put level Option.none

/-- The table with the color of a specification for a level. -/
def set (table : ColorTable) (level : Level) (spec : String) : Except ColorError ColorTable :=
  (Color.compileText spec).map fun sequence => table.put level (some sequence)

/-- A change of a table. -/
inductive Step where
  | set (level : Level) (spec : String)
  | clear (level : Level)

/-- The table behind a step, which is the same where the specification is an error. -/
def apply (table : ColorTable) : Step → ColorTable
  | .set level spec =>
    match table.set level spec with
    | .ok updated => updated
    | .error _ => table
  | .clear level => table.clear level

/-- The table behind a list of steps. -/
def run (table : ColorTable) (steps : List Step) : ColorTable := steps.foldl apply table

/-- The specification of the color that a level has at first. -/
def standardSpec : Level → String
  | .emergency => "bold/underline/fg:231/bg:196"
  | .alert => "bold/underline/fg:201"
  | .critical => "bold/underline/fg:196"
  | .error => "bold/fg:196"
  | .warning => "bold/fg:214"
  | .notice => "fg:37"
  | .info => "fg:39"
  | .debug => "fg:244"

/-- The table of the colors that levels have at first. -/
def standard : ColorTable := ⟨fun level => (Color.compileText (standardSpec level)).toOption⟩

@[simp] theorem get_put (table : ColorTable) (level other : Level) (entry : Option String) :
    (table.put level entry).get other = if other = level then entry else table.get other := rfl

end ColorTable

end Logbook
