import Logbook.Json.Reader
import Logbook.Json.Writer
import Logbook.Text.Quoted

/-!
# Typed reading of JSON

Readers that ask for a certain kind of value: a text, a truth value, a number
of a certain size, an optional value, a list, a map, a structure with named
parts, one of several named variants. A structure may be written as an object
or as the array of its parts in their order. Where the value is of another
kind, the error names the kind that stands there and the kind that is asked
for.
-/

namespace Logbook.Json

/-- How an error names a value that stands in the wrong place. -/
def describe : Json → String
  | .null => "null"
  | .bool true => "boolean `true`"
  | .bool false => "boolean `false`"
  | .integer n => "integer `" ++ String.ofList (integerChars n) ++ "`"
  | .single w => "floating point `" ++ String.ofList (singleStyle.chars w.toNat) ++ "`"
  | .double w => "floating point `" ++ String.ofList (doubleStyle.chars w.toNat) ++ "`"
  | .text s => "string " ++ Text.quoted s
  | .array _ => "sequence"
  | .object _ => "map"

/-- The error of a value of the wrong kind. -/
def wrongKind (found expected : String) : ReadError :=
  .unsuitable ("invalid type: " ++ found ++ ", expected " ++ expected)

/-- The error of a value of the right kind that is out of range. -/
def outOfRange (found expected : String) : ReadError :=
  .unsuitable ("invalid value: " ++ found ++ ", expected " ++ expected)

/-- The error of an array that ends behind `length` parts. -/
def wrongLength (length : Nat) (expected : String) : ReadError :=
  .unsuitable ("invalid length " ++ toString length ++ ", expected " ++ expected)

/-- Refuses the value at the front, for it is not the expected one. A text or a
    number is read first, and its own faults come before this one. -/
def refuse (expected : String) : Reader α := fun cs =>
  match skipGap cs with
  | '[' :: _ => .error (wrongKind "sequence" expected)
  | '\x7b' :: _ => .error (wrongKind "map" expected)
  | _ => do
    let (value, _) ← readValue 0 cs
    .error (wrongKind value.describe expected)

def textReader (expected : String) : Reader String := fun cs =>
  match skipGap cs with
  | '"' :: rest => readText rest
  | _ => refuse expected cs

/-- A truth value. -/
def boolReader : Reader Bool := fun cs =>
  match skipGap cs with
  | 't' :: rest => (readWord ['r', 'u', 'e'] rest).map fun (_, rest) => (true, rest)
  | 'f' :: rest => (readWord ['a', 'l', 's', 'e'] rest).map fun (_, rest) => (false, rest)
  | _ => refuse "a boolean" cs

/-- A whole number from zero to the largest of sixty-four bits. -/
def naturalReader (expected : String) : Reader Nat := fun cs =>
  match skipGap cs with
  | c :: rest =>
    if c = '-' ∨ c.isDigit then do
      let (value, rest) ← readNumber (c :: rest)
      match value with
      | .integer (.ofNat n) => .ok (n, rest)
      | .integer (.negSucc n) => .error (outOfRange (describe (.integer (.negSucc n))) expected)
      | other => .error (wrongKind other.describe expected)
    else refuse expected cs
  | [] => .error .truncated

/-- The value null. -/
def nullReader (expected : String) : Reader Unit := fun cs =>
  match skipGap cs with
  | 'n' :: rest => readWord ['u', 'l', 'l'] rest
  | _ => refuse expected cs

/-- A value that may be absent, which is written as null. -/
def optionReader (item : Reader α) : Reader (Option α) := fun cs =>
  match skipGap cs with
  | 'n' :: rest => (readWord ['u', 'l', 'l'] rest).map fun (_, rest) => (none, rest)
  | _ => (item cs).map fun (value, rest) => (some value, rest)

def listReader (item : Reader α) : Reader (List α) := fun cs =>
  match skipGap cs with
  | '[' :: rest => readElements item rest
  | _ => refuse "a sequence" cs

/-- A map, whose members are put into a state one after another. A name is
    checked before its colon is reached. -/
def mapReader (key : String → Except ReadError κ) (item : Reader α) (put : κ → α → σ → σ)
    (empty : σ) : Reader σ := fun cs =>
  match skipGap cs with
  | '\x7b' :: rest =>
    readMembers (fun name state cs => do
      let k ← key name
      let (_, cs) ← readColon cs
      let (value, cs) ← item cs
      .ok (put k value state, cs)) empty rest
  | _ => refuse "a map" cs

/-- Names as an error lists them. -/
def oneOf : List String → String
  | [a] => "`" ++ a ++ "`"
  | [a, b] => "`" ++ a ++ "` or `" ++ b ++ "`"
  | names => "one of " ++ Text.join ", " (names.map fun name => "`" ++ name ++ "`")

/-- A part of a structure that is read into a state of the type `σ`: its name,
    whether the state already holds it, its reader, and the state to go on with
    if an array ends before it. -/
structure NamedPart (σ : Type) where
  name : String
  isSet : σ → Bool
  reader : σ → Reader σ
  absent : σ → Option σ

/-- Reads the members of an object as the parts of a structure, each at most
    once. -/
def readParts (parts : List (NamedPart σ)) (state : σ) : Reader σ :=
  readMembers (fun name state cs =>
    match parts.find? (·.name = name) with
    | none =>
      .error (.unsuitable
        ("unknown field `" ++ name ++ "`, expected " ++ oneOf (parts.map (·.name))))
    | some part =>
      if part.isSet state then .error (.unsuitable ("duplicate field `" ++ name ++ "`"))
      else do
        let (_, cs) ← readColon cs
        part.reader state cs) state

/-- Reads the elements of an array as the parts of a structure in their order.
    `place` counts the parts already behind. -/
def readPlaces (expected : String) (place : Nat) : List (NamedPart σ) → σ → Reader σ
  | [], state, cs =>
    match skipGap cs with
    | [] => .error .truncated
    | ']' :: rest => .ok (state, rest)
    | _ => .error .malformed
  | part :: parts, state, cs => do
    match ← nextElement (place = 0) cs with
    | some start =>
      let (state, cs) ← part.reader state start
      readPlaces expected (place + 1) parts state cs
    | none =>
      match part.absent state with
      | some state => readAbsent expected (place + 1) parts state cs
      | none => .error (wrongLength place expected)
where
  /-- Leaves out the further parts, at the closing bracket of the array. -/
  readAbsent (expected : String) (place : Nat) : List (NamedPart σ) → σ → Reader σ
    | [], state, cs => .ok (state, (skipGap cs).drop 1)
    | part :: parts, state, cs =>
      match part.absent state with
      | some state => readAbsent expected (place + 1) parts state cs
      | none => .error (wrongLength place expected)

/-- A structure with the given parts, from a state in which none is set. -/
def structReader (name : String) (parts : List (NamedPart σ)) (empty : σ) : Reader σ := fun cs =>
  match skipGap cs with
  | '\x7b' :: rest => readParts parts empty rest
  | '[' :: rest =>
    readPlaces ("struct " ++ name ++ " with " ++ toString parts.length ++ " elements") 0 parts
      empty rest
  | _ => refuse ("struct " ++ name) cs

/-- The error of a structure that lacks a part. -/
def missingPart (name : String) : ReadError := .unsuitable ("missing field `" ++ name ++ "`")

/-- A named variant: with no content, or with a content that is read by the
    reader. -/
inductive Variant (α : Type) where
  | bare (value : α)
  | holding (content : Reader α)

def findVariant (variants : List (String × Variant α)) (name : String) :
    Except ReadError (Variant α) :=
  match variants.find? (·.1 = name) with
  | some (_, variant) => .ok variant
  | none =>
    .error (.unsuitable
      ("unknown variant `" ++ name ++ "`, expected " ++ oneOf (variants.map (·.1))))

/-- One of several variants: its name alone, or an object with the name as its
    only member. An object that does not begin with a name is malformed. -/
def variantReader (variants : List (String × Variant α)) : Reader α := fun cs =>
  match skipGap cs with
  | [] => .error .truncated
  | '"' :: rest => do
    let (name, rest) ← readText rest
    match ← findVariant variants name with
    | .bare value => .ok (value, rest)
    | .holding _ => .error (wrongKind "unit variant" "newtype variant")
  | '\x7b' :: rest => do
    let (name, rest) ←
      match skipGap rest with
      | [] => .error .truncated
      | '"' :: rest => readText rest
      | _ => .error .malformed
    let variant ← findVariant variants name
    let (_, rest) ← readColon rest
    let (value, rest) ←
      match variant with
      | .bare value => (nullReader "unit" rest).map fun (_, rest) => (value, rest)
      | .holding content => content rest
    match skipGap rest with
    | [] => .error .truncated
    | '\x7d' :: rest => .ok (value, rest)
    | _ => .error .malformed
  | _ => .error .malformed

end Logbook.Json
