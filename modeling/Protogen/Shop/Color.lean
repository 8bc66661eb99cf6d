import Protogen.Codec.JsonMessage

set_option autoImplicit false

namespace Protogen.Shop

open Number (Range)

inductive Color where
  | unspecified
  | red
  | blue
  deriving DecidableEq

namespace Color

def number : Color → Int32
  | unspecified => 0
  | red => 1
  | blue => 2

def name : Color → String
  | unspecified => "COLOR_UNSPECIFIED"
  | red => "COLOR_RED"
  | blue => "COLOR_BLUE"

def all : List Color := [unspecified, red, blue]

def ofNumber? (n : Int32) : Option Color :=
  all.find? (·.number == n)

def ofName? (s : String) : Option Color :=
  all.find? (·.name == s)

private def readNumber? (s : String) : Option Int32 :=
  (Range.int32.read? s.toList).map Int32.ofInt

def numberOfText (s : String) : Except CodecError Int32 :=
  match ofName? s with
  | some c => .ok c.number
  | none =>
    match readNumber? s with
    | some n => .ok n
    | none => .error (.invalidEnumValue "Color" s)

-- A variant, where `none` stands for every number without one.
abbrev Variant := Option Color

namespace Variant

def number : Variant → Int32
  | some c => c.number
  | none => -1

def name : Variant → String
  | some c => c.name
  | none => "UNRECOGNIZED"

def ofText (s : String) : Variant :=
  match ofName? s with
  | some c => some c
  | none => (readNumber? s).bind ofNumber?

end Variant

end Color

structure ColorForm where
  Carrier : Type
  base : Carrier
  isBase : Carrier → Bool
  toNumber : Carrier → Int32
  ofNumber : Int32 → Carrier
  json : JsonCodec Carrier

namespace ColorForm

-- Numbers, written by name in JSON where they have one.
@[reducible] def number : ColorForm where
  Carrier := Int32
  base := 0
  isBase n := n == 0
  toNumber n := n
  ofNumber n := n
  json :=
    { read := fun v =>
        match v with
        | .string s => Color.numberOfText s
        | v => JsonCodec.int32.read v
      write := fun n =>
        match Color.ofNumber? n with
        | some c => .string c.name
        | none => .int n.toInt }

-- Variants, written by number in JSON.
@[reducible] def variant : ColorForm where
  Carrier := Color.Variant
  base := some .unspecified
  isBase c := c == some .unspecified
  toNumber := Color.Variant.number
  ofNumber := Color.ofNumber?
  json :=
    { read := fun v =>
        match v with
        | .string s => .ok (Color.Variant.ofText s)
        | v => do return Color.ofNumber? (← JsonCodec.int32.read v)
      write := fun c => .int c.number.toInt }

end ColorForm

end Protogen.Shop
