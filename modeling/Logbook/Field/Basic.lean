import Logbook.Field.Payload

/-!
# Fields

A field is a named value at a frame of a stack trace. A question mark at the end
of its name makes it a field that may be left out: it is rendered only while its
value is not zero. Fields of the system have names of their own, of which those
that begin with an underscore are reserved and never rendered.
-/

namespace Logbook

/-- A named value. -/
structure Field where
  key : String
  value : Payload
  frame : Nat
  system : Bool
  omittable : Bool
  deriving Inhabited, Repr

namespace Field

/-- The name without the mark of a field that may be left out, and whether it
    has the mark. -/
def splitMark (name : String) : String × Bool :=
  let cs := name.toList
  if cs.getLast? = some '?' then (String.ofList cs.dropLast, true) else (name, false)

/-- A field of the program, at the first frame. -/
def make (name : String) (value : Payload) : Field :=
  let (key, omittable) := splitMark name
  { key, value, frame := 0, system := false, omittable }

/-- A field of the system, at the first frame. -/
def ofSystem (name : String) (value : Payload) : Field :=
  { make name value with system := true }

/-- The field of a value that may be missing. -/
def ofOption (name : String) (kind : Kind) (value : Option Payload) : Field :=
  make name (value.getD (.null kind))

/-- The field at another frame. -/
def atFrame (f : Field) (frame : Nat) : Field := { f with frame }

def asSystem (f : Field) : Field := { f with system := true }

/-- The field has an empty name. -/
def isNameless (f : Field) : Bool := f.key.isEmpty

def kind (f : Field) : Kind := f.value.kind

/-- The field is one of the system that is never rendered. -/
def isInternal (f : Field) : Bool := f.system && f.key.toList.head? = some '_'

/-- The field is rendered: its value could be taken, it is not reserved, and if
    it may be left out its value is not zero, unless zeros are wanted. -/
def isShown (keepZeros : Bool) (f : Field) : Bool :=
  !f.value.isInvalid && !f.isInternal && (keepZeros || !f.omittable || !f.value.isZero)

/-- The name that is shown for the field. A field without a name is called by its
    place among the fields that are shown with it. -/
def label (f : Field) (position : Nat) : String :=
  if f.isNameless then "_" ++ String.ofList (Text.digits position) else f.key

/-- The value as it stands in a line of text: the plain text of one value, and the
    JSON form of a complex number or of a composite one. -/
def shownValue (f : Field) : String :=
  if f.value.isNull || f.kind.isScalar then f.value.plainText else f.value.toJson.write

end Field

end Logbook
