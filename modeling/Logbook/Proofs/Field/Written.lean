import Logbook.Field.Basic

/-!
# Fields as they are written

What has to be written of a field: its name, or its place among the fields that stand with
it where it has none, and its value. `label_eq` and `shownValue_eq` say that this is what a
field is called and shown by.
-/

namespace Logbook.Field

/-- The name, or an underscore with the place of the field where it has none. -/
def writtenKey (f : Field) (position : Nat) : String :=
  if f.key = "" then "_" ++ toString position else f.key

/-- The plain text of one value or of none, and the JSON form of everything else. -/
def writtenValue (f : Field) : String :=
  if f.value.isNull ∨ f.value.kind.isScalar then f.value.plainText else f.value.toJson.write

theorem label_eq (f : Field) (position : Nat) : f.label position = f.writtenKey position := by
  have hdigits : String.ofList (Text.digits position) = toString position := rfl
  rw [label, isNameless, writtenKey, hdigits]
  simp only [String.isEmpty_iff]

theorem shownValue_eq (f : Field) : f.shownValue = f.writtenValue := by
  rw [shownValue, writtenValue, kind]
  simp only [Bool.or_eq_true]

end Logbook.Field
