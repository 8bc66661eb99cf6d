import Protogen.Schema.Kind

set_option autoImplicit false

namespace Protogen.Target

open Schema (Kind)

-- A value that is written without a length of its own around it.
inductive Primitive where
  | scalar (kind : Kind)
  | long (kind : Kind) (form : LongOption)
  -- An enumeration, by number or, if `byName`, as variants, with the value that is its default.
  | enum (path : String) (byName : Bool) (defaultNumber : Int32) (defaultVariant : String)
  deriving DecidableEq

-- A value that is a message on the wire.
inductive Child where
  | message (path partialPath : String) (boxed : Bool)
  -- A message of one field, held as the value of the field.
  | wrapper (path : String) (inner : Primitive)
  | timestamp (path partialPath : String) (form : DateOption)
  deriving DecidableEq

inductive Base where
  | primitive (p : Primitive)
  | child (c : Child)
  deriving DecidableEq

namespace Primitive

def type : Primitive → String
  | scalar k => k.scalarType
  | long k form => k.longType form
  | enum path byName _ _ => if byName then path else "i32"

def isCopy : Primitive → Bool
  | scalar .string | scalar .bytes => false
  | scalar _ => true
  | long _ form => form == .number
  | enum _ _ _ _ => true

def isPackable : Primitive → Bool
  | scalar k => k.isPackable
  | _ => true

def wireType : Primitive → Wire.WireType
  | scalar k => k.wireType
  | long k _ => k.wireType
  | enum _ _ _ _ => .varint

-- The expression for the value that an absent field has.
def zero : Primitive → String
  | scalar .double | scalar .float => "0.0"
  | scalar .bool => "false"
  | scalar .string => "String::new()"
  | scalar .bytes => "Vec::new()"
  | scalar _ => "0"
  | long _ .number => "0"
  | long _ .string => "\"0\".to_string()"
  | long _ .bigInt => "::protoweave::num_bigint::BigInt::default()"
  | enum path byName number variant =>
    if byName then path ++ "::" ++ variant else String.ofList (Number.intText number.toInt)

end Primitive

private def inBox (boxed : Bool) (type : String) : String :=
  if boxed then "Box<" ++ type ++ ">" else type

namespace Child

def type : Child → String
  | message path _ boxed => inBox boxed path
  | wrapper _ inner => inner.type
  | timestamp path _ .timestamp => path
  | timestamp _ _ .date => "::protoweave::time::OffsetDateTime"
  | timestamp _ _ .string => "String"

def partialType : Child → String
  | message _ partialPath boxed => inBox boxed partialPath
  | timestamp _ partialPath .timestamp => partialPath
  | c => c.type

def convertsPartial : Child → Bool
  | message _ _ _ => true
  | timestamp _ _ .timestamp => true
  | _ => false

def isCopy : Child → Bool
  | message _ _ _ => false
  | wrapper _ inner => inner.isCopy
  | timestamp _ _ form => form == .date

def zero : Child → String
  | wrapper _ inner => inner.zero
  | _ => "Default::default()"

def unboxed : Child → Child
  | message path partialPath _ => message path partialPath false
  | c => c

def isBoxed : Child → Bool
  | message _ _ boxed => boxed
  | _ => false

end Child

namespace Base

def type : Base → String
  | primitive p => p.type
  | child c => c.type

def partialType : Base → String
  | primitive p => p.type
  | child c => c.partialType

def convertsPartial : Base → Bool
  | primitive _ => false
  | child c => c.convertsPartial

def isCopy : Base → Bool
  | primitive p => p.isCopy
  | child c => c.isCopy

def isPackable : Base → Bool
  | primitive p => p.isPackable
  | child _ => false

def isDelimited : Base → Bool
  | primitive _ => false
  | child _ => true

def zero : Base → String
  | primitive p => p.zero
  | child c => c.zero

def unboxed : Base → Base
  | primitive p => primitive p
  | child c => child c.unboxed

def isBoxed : Base → Bool
  | primitive _ => false
  | child c => c.isBoxed

end Base

-- A map: its key, and how the message of an entry holds the value.
structure MapShape where
  key : Base
  entryPath : String
  -- The value of an entry may be absent.
  valueWrapped : Bool
  /-- The value of an entry is boxed. -/
  valueBoxed : Bool
  deriving DecidableEq

-- How the values of a field are held.
inductive Container where
  | required
  | optional
  | repeated
  | map (shape : MapShape)
  -- A variant of the type of a choice.
  | union (choice : Nat) (variant : String)
  deriving DecidableEq

-- The type of a field's values in their container; a variant has the type of its value.
def Container.type (c : Container) (base : String) : String :=
  match c with
  | required => base
  | optional => "Option<" ++ base ++ ">"
  | repeated => "Vec<" ++ base ++ ">"
  | map shape => "::std::collections::BTreeMap<" ++ shape.key.type ++ ", " ++ base ++ ">"
  | union _ _ => base

def Container.partialType (c : Container) (base : String) : String :=
  let inner :=
    match c with
    | repeated | map _ => c.type base
    | _ => base
  "Option<" ++ inner ++ ">"

end Protogen.Target
