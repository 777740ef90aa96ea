/-!
# Kinds of field values

The kind of a field value says which sort of payload it holds. Kinds are
scalar where the plain text of the payload is also its text in a log line.
-/

namespace Logbook

/-- What sort of payload a field value holds. -/
inductive Kind where
  | invalid
  | bool
  | int8
  | int16
  | int32
  | int64
  | nat8
  | nat16
  | nat32
  | nat64
  | float32
  | float64
  | text
  | complex64
  | complex128
  | time
  | duration
  | array
  | object
  deriving DecidableEq, Repr

namespace Kind

/-- Every kind. -/
def all : List Kind :=
  [invalid, bool, int8, int16, int32, int64, nat8, nat16, nat32, nat64, float32, float64, text,
    complex64, complex128, time, duration, array, object]

def name : Kind → String
  | invalid => "invalid"
  | bool => "bool"
  | int8 => "i8"
  | int16 => "i16"
  | int32 => "i32"
  | int64 => "i64"
  | nat8 => "u8"
  | nat16 => "u16"
  | nat32 => "u32"
  | nat64 => "u64"
  | float32 => "f32"
  | float64 => "f64"
  | text => "str"
  | complex64 => "complex64"
  | complex128 => "complex128"
  | time => "time"
  | duration => "duration"
  | array => "array"
  | object => "object"

def ofName? (s : String) : Option Kind := all.find? fun kind => kind.name = s

/-- The payload is one value, and no complex number. -/
def isScalar : Kind → Bool
  | array | object | complex64 | complex128 => false
  | _ => true

end Kind

end Logbook
