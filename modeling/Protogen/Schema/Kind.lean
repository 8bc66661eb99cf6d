import Protogen.Compile.Options
import Protogen.Schema.Basic
import Protogen.Wire.Reader

set_option autoImplicit false

namespace Protogen.Schema.Kind

open Wire (WireType)

def all : List Kind := [
  double, float, int64, uint64, int32, fixed64, fixed32, bool, string, group, message, bytes, uint32,
  enum, sfixed32, sfixed64, sint32, sint64]

def ofNumber? (n : Int) : Option Kind :=
  if n ≤ 0 then none else all[n.toNat - 1]?

def isLong : Kind → Bool
  | int64 | uint64 | sint64 | fixed64 | sfixed64 => true
  | _ => false

-- Types whose values may be written one after another in one run.
def isPackable : Kind → Bool
  | string | bytes | message | group => false
  | _ => true

def isUnsigned : Kind → Bool
  | uint64 | fixed64 => true
  | _ => false

def wireType : Kind → WireType
  | double | fixed64 | sfixed64 => .fixed64
  | float | fixed32 | sfixed32 => .fixed32
  | string | bytes | message => .delimited
  | group => .startGroup
  | _ => .varint

def method : Kind → String
  | double => "double"
  | float => "float"
  | int64 => "int64"
  | uint64 => "uint64"
  | int32 => "int32"
  | fixed64 => "fixed64"
  | fixed32 => "fixed32"
  | bool => "bool"
  | string => "string"
  | group => "group"
  | message => "message"
  | bytes => "bytes"
  | uint32 => "uint32"
  | enum => "int32"
  | sfixed32 => "sfixed32"
  | sfixed64 => "sfixed64"
  | sint32 => "sint32"
  | sint64 => "sint64"

def scalarType : Kind → String
  | double => "f64"
  | float => "f32"
  | int64 | sint64 | sfixed64 => "i64"
  | uint64 | fixed64 => "u64"
  | uint32 | fixed32 => "u32"
  | bool => "bool"
  | string => "String"
  | bytes => "Vec<u8>"
  | _ => "i32"

def longType (k : Kind) : LongOption → String
  | .number => k.scalarType
  | .string => "String"
  | .bigInt => "::protoweave::num_bigint::BigInt"

def isMapKey : Kind → Bool
  | double | float | bytes | message | group | enum => false
  | _ => true

end Protogen.Schema.Kind

namespace Protogen.Schema

-- The tag of a field with a wire type. Tags have 32 bits; higher bits are lost.
def Field.tag (f : Field) (wireType : Nat) : UInt32 :=
  (f.number.toUInt32 <<< 3) ||| UInt32.ofNat wireType

end Protogen.Schema
