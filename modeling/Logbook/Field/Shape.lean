import Logbook.Field.Payload

/-!
# Shapes of recorded values

A program's own values come in shapes: scalars, optional and wrapped values,
sequences, maps, records and variants of these. `Shape.toJson?` is the JSON
value of a shape, which does not exist for every one. `Payload.ofShape`
keeps the exact kind and bits of a scalar and takes the JSON value of anything
else, and is invalid where there is none.
-/

namespace Logbook

/-- The shape of a value. The two integers of unbounded size stand for those of
    a hundred and twenty-eight bits. A variant has a name, and its content is a
    shape, a sequence or a record. -/
inductive Shape where
  | bool (value : Bool)
  | int8 (value : Int8)
  | int16 (value : Int16)
  | int32 (value : Int32)
  | int64 (value : Int64)
  | wideInt (value : Int)
  | nat8 (value : UInt8)
  | nat16 (value : UInt16)
  | nat32 (value : UInt32)
  | nat64 (value : UInt64)
  | wideNat (value : Nat)
  | float32 (word : UInt32)
  | float64 (word : UInt64)
  | char (value : Char)
  | text (value : String)
  | octets (value : List UInt8)
  | absent
  | unit
  | present (content : Shape)
  | wrapped (content : Shape)
  | bareVariant (name : String)
  | variant (name : String) (content : Shape)
  | sequence (elements : List Shape)
  | sequenceVariant (name : String) (elements : List Shape)
  | map (entries : List (Shape × Shape))
  | record (fields : List (String × Shape))
  | recordVariant (name : String) (fields : List (String × Shape))
  | failing (message : String)
  deriving Repr

namespace Shape

/-- A whole number in JSON, which has to fit into sixty-four bits. -/
def integer? (n : Int) : Option Json :=
  if Int64.minValue.toInt ≤ n ∧ n < UInt64.size then some (.integer n) else none

/-- The number of a word in JSON; what is no finite number is null. -/
def double (w : UInt64) : Json :=
  match Decimal.Format.double.decode w.toNat with
  | .finite _ _ _ => .double w
  | _ => .null

/-- The name of a floating point number as a key, which has to be finite. -/
def floatKey? (style : Json.NumberStyle) (w : Nat) : Option String :=
  match style.format.decode w with
  | .finite _ _ _ => some (String.ofList (style.chars w))
  | _ => none

/-- The name that a shape has as the key of a map. -/
def key? : Shape → Option String
  | bool true => some "true"
  | bool false => some "false"
  | int8 value => some (Payload.integerText value.toInt)
  | int16 value => some (Payload.integerText value.toInt)
  | int32 value => some (Payload.integerText value.toInt)
  | int64 value => some (Payload.integerText value.toInt)
  | wideInt value => some (Payload.integerText value)
  | nat8 value => some (Payload.integerText value.toNat)
  | nat16 value => some (Payload.integerText value.toNat)
  | nat32 value => some (Payload.integerText value.toNat)
  | nat64 value => some (Payload.integerText value.toNat)
  | wideNat value => some (Payload.integerText value)
  | float32 word => floatKey? Json.singleStyle word.toNat
  | float64 word => floatKey? Json.doubleStyle word.toNat
  | char value => some (String.singleton value)
  | text value => some value
  | bareVariant name => some name
  | wrapped content => content.key?
  | _ => none

mutual

/-- The JSON value of a shape, with every object in the order of its names. -/
def toJson? : Shape → Option Json
  | bool value => some (.bool value)
  | int8 value => some (.integer value.toInt)
  | int16 value => some (.integer value.toInt)
  | int32 value => some (.integer value.toInt)
  | int64 value => some (.integer value.toInt)
  | wideInt value => integer? value
  | nat8 value => some (.integer value.toNat)
  | nat16 value => some (.integer value.toNat)
  | nat32 value => some (.integer value.toNat)
  | nat64 value => some (.integer value.toNat)
  | wideNat value => integer? value
  | float32 word => some (double (Decimal.widen word))
  | float64 word => some (double word)
  | char value => some (.text (String.singleton value))
  | text value => some (.text value)
  | octets value => some (.array (value.map fun b => .integer b.toNat))
  | absent | unit => some .null
  | present content | wrapped content => content.toJson?
  | bareVariant name => some (.text name)
  | variant name content => content.toJson?.map fun value => .object [(name, value)]
  | sequence elements => (elementsToJson? elements).map .array
  | sequenceVariant name elements =>
    (elementsToJson? elements).map fun values => .object [(name, .array values)]
  | map entries => (entriesToJson? entries).map fun members => .object (Json.sortMembers members)
  | record fields => (fieldsToJson? fields).map fun members => .object (Json.sortMembers members)
  | recordVariant name fields =>
    (fieldsToJson? fields).map fun members => .object [(name, .object (Json.sortMembers members))]
  | failing _ => none

/-- The JSON values of the elements of a sequence. -/
def elementsToJson? : List Shape → Option (List Json)
  | [] => some []
  | element :: rest => do
    let value ← element.toJson?
    let values ← elementsToJson? rest
    some (value :: values)

/-- The members of a map, in the order of its entries. -/
def entriesToJson? : List (Shape × Shape) → Option (List (String × Json))
  | [] => some []
  | (key, content) :: rest => do
    let name ← key.key?
    let value ← content.toJson?
    let members ← entriesToJson? rest
    some ((name, value) :: members)

/-- The members of a record, in the order of its fields. -/
def fieldsToJson? : List (String × Shape) → Option (List (String × Json))
  | [] => some []
  | (name, content) :: rest => do
    let value ← content.toJson?
    let members ← fieldsToJson? rest
    some ((name, value) :: members)

end

end Shape

/-- A field value for a shape. Scalars keep their kind and bits, and an integer
    of any size is signed where it fits into sixty-four bits. A natural number
    of any size is unsigned. Every other shape is taken by its JSON value. -/
def Payload.ofShape : Shape → Payload
  | .bool value => .bool value
  | .int8 value => .int8 value
  | .int16 value => .int16 value
  | .int32 value => .int32 value
  | .int64 value => .int64 value
  | .wideInt value => ofInteger value
  | .nat8 value => .nat8 value
  | .nat16 value => .nat16 value
  | .nat32 value => .nat32 value
  | .nat64 value => .nat64 value
  | .wideNat value => if value < UInt64.size then .nat64 (.ofNat value) else .invalid
  | .float32 word => .float32 word
  | .float64 word => .float64 word
  | .char value => .text (String.singleton value)
  | .text value => .text value
  | .absent | .unit => .null .object
  | .present content | .wrapped content => ofShape content
  | .bareVariant name => .text name
  | .failing _ => .invalid
  | shape =>
    match shape.toJson? with
    | some value => ofJson value
    | none => .invalid

end Logbook
