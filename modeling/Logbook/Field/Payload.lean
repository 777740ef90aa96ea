import Logbook.Field.Kind
import Logbook.Json.Writer
import Logbook.Calendar.Timestamp
import Logbook.Calendar.Duration

/-!
# Payloads of fields

A field value holds exactly one payload. Floating point payloads are words of
bits, so that no two of them are confused, and composite payloads are JSON. A
value has a plain text, `Payload.plainText`, and a JSON form,
`Payload.toJson`; `Payload.ofJson` takes a JSON value as a payload.
-/

namespace Logbook

/-- The payload of a field. `null` remembers the kind of the value that is
    missing. -/
inductive Payload where
  | invalid
  | null (kind : Kind)
  | bool (value : Bool)
  | int8 (value : Int8)
  | int16 (value : Int16)
  | int32 (value : Int32)
  | int64 (value : Int64)
  | nat8 (value : UInt8)
  | nat16 (value : UInt16)
  | nat32 (value : UInt32)
  | nat64 (value : UInt64)
  | float32 (word : UInt32)
  | float64 (word : UInt64)
  | text (value : String)
  | complex64 (re im : UInt32)
  | complex128 (re im : UInt64)
  | time (value : Calendar.Timestamp)
  | duration (value : Calendar.Duration)
  | array (elements : List Json)
  | object (members : List (String × Json))
  deriving Inhabited, Repr

namespace Payload

def kind : Payload → Kind
  | invalid => .invalid
  | null kind => kind
  | bool _ => .bool
  | int8 _ => .int8
  | int16 _ => .int16
  | int32 _ => .int32
  | int64 _ => .int64
  | nat8 _ => .nat8
  | nat16 _ => .nat16
  | nat32 _ => .nat32
  | nat64 _ => .nat64
  | float32 _ => .float32
  | float64 _ => .float64
  | text _ => .text
  | complex64 _ _ => .complex64
  | complex128 _ _ => .complex128
  | time _ => .time
  | duration _ => .duration
  | array _ => .array
  | object _ => .object

/-- The value is missing. -/
def isNull : Payload → Bool
  | null _ => true
  | _ => false

/-- The value could not be taken. -/
def isInvalid : Payload → Bool
  | invalid => true
  | _ => false

/-- The payload is the zero of its kind. A floating point zero with a minus sign
    is not. -/
def isZero : Payload → Bool
  | invalid | null _ => true
  | bool value => !value
  | int8 value => value = 0
  | int16 value => value = 0
  | int32 value => value = 0
  | int64 value => value = 0
  | nat8 value => value = 0
  | nat16 value => value = 0
  | nat32 value => value = 0
  | nat64 value => value = 0
  | float32 word => word = 0
  | float64 word => word = 0
  | text value => value.isEmpty
  | complex64 re im => re = 0 && im = 0
  | complex128 re im => re = 0 && im = 0
  | time value => value.isEpoch
  | duration value => value.isZero
  | array elements => elements.isEmpty
  | object members => members.isEmpty

/-- The text of a complex number: its two parts between parentheses, the second
    with its sign. -/
def complexText (format : Decimal.Format) (re im : Nat) : String :=
  String.ofList ('(' :: format.plain re ++ format.plainSigned im ++ ['i', ')'])

def integerText (n : Int) : String := String.ofList (Json.integerChars n)

def plainText : Payload → String
  | invalid => "<invalid>"
  | null _ => "null"
  | bool true => "true"
  | bool false => "false"
  | int8 value => integerText value.toInt
  | int16 value => integerText value.toInt
  | int32 value => integerText value.toInt
  | int64 value => integerText value.toInt
  | nat8 value => integerText value.toNat
  | nat16 value => integerText value.toNat
  | nat32 value => integerText value.toNat
  | nat64 value => integerText value.toNat
  | float32 word => String.ofList (Decimal.Format.single.plain word.toNat)
  | float64 word => String.ofList (Decimal.Format.double.plain word.toNat)
  | text value => value
  | complex64 re im => complexText .single re.toNat im.toNat
  | complex128 re im => complexText .double re.toNat im.toNat
  | time value => String.ofList value.text
  | duration value => String.ofList value.text
  | array elements => (Json.array elements).write
  | object members => (Json.object members).write

/-- The JSON form. Complex numbers, times and durations are their plain text, and
    a value that is missing or invalid is null. -/
def toJson : Payload → Json
  | invalid | null _ => .null
  | bool value => .bool value
  | int8 value => .integer value.toInt
  | int16 value => .integer value.toInt
  | int32 value => .integer value.toInt
  | int64 value => .integer value.toInt
  | nat8 value => .integer value.toNat
  | nat16 value => .integer value.toNat
  | nat32 value => .integer value.toNat
  | nat64 value => .integer value.toNat
  | float32 word => .single word
  | float64 word => .double word
  | text value => .text value
  | value@(complex64 _ _) | value@(complex128 _ _) | value@(time _) | value@(duration _) =>
    .text value.plainText
  | array elements => .array elements
  | object members => .object members

/-- The smallest width of sixty-four bits for a whole number, signed where it
    fits. -/
def ofInteger (n : Int) : Payload :=
  if Int64.minValue.toInt ≤ n ∧ n ≤ Int64.maxValue.toInt then .int64 (.ofInt n)
  else if 0 ≤ n ∧ n < UInt64.size then .nat64 (.ofNat n.toNat)
  else .invalid

/-- A JSON value as a payload; its objects are maps, in the order of their names. -/
def ofJson (value : Json) : Payload :=
  match value.sorted with
  | .null => .null .object
  | .bool value => .bool value
  | .integer n => ofInteger n
  | .single w => .float64 (Decimal.widen w)
  | .double w => .float64 w
  | .text s => .text s
  | .array elements => .array elements
  | .object members => .object members

end Payload

end Logbook
