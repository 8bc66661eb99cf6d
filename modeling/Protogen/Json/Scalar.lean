import Protogen.Codec.Error
import Protogen.Json.Printer
import Protogen.Text.Blank

set_option autoImplicit false

namespace Protogen.Json

open Number (Double Single Range)

def unexpected {α : Type} (expected : String) (v : Json) : Except CodecError α :=
  .error (.unexpectedJson expected v.kind)

def toObject : Json → Except CodecError (List (String × Json))
  | .object members => .ok members
  | v => unexpected "object" v

def toArray : Json → Except CodecError (List Json)
  | .array items => .ok items
  | v => unexpected "array" v

-- The value of a member, unless it is missing or null.
def member? (members : List (String × Json)) (key : String) : Option Json :=
  ((members.find? (·.1 == key)).map (·.2)).filter (!·.isNull)

def toText : Json → Except CodecError String
  | .string s => .ok s
  | v => unexpected "string" v

def toBool : Json → Except CodecError Bool
  | .bool b => .ok b
  | .string "true" => .ok true
  | .string "false" => .ok false
  | v => unexpected "boolean" v

-- The integer that a number or a text gives, of at most 128 bits. A larger double becomes the largest of them,
-- which is still outside every field's type.
def toInteger : Json → Except CodecError Int
  | .int i => .ok i
  | .double x =>
    match x.toInt? with
    | some i => .ok (Range.int128.clamp i)
    | none => .error (.unexpectedJson "integer" (Json.double x).compact)
  | .string s =>
    match Range.int128.read? (Text.trim s.toList) with
    | some i => .ok i
    | none => .error (.invalidLong s)
  | v => unexpected "integer" v

def toIntegerIn (r : Range) (v : Json) : Except CodecError Int := do
  let i ← v.toInteger
  if r.contains i then .ok i else .error (.overflow i)

def toDouble : Json → Except CodecError Double
  | .int i => .ok (Double.ofFraction (i < 0) i.natAbs 1)
  | .double x => .ok x
  | .string s =>
    match s with
    | "NaN" => .ok (Double.nan false)
    | "Infinity" => .ok (Double.infinity false)
    | "-Infinity" => .ok (Double.infinity true)
    | _ =>
      match Double.read? (Text.trim s.toList) with
      | some x => .ok x
      | none => unexpected "number" (.string s)
  | v => unexpected "number" v

def toSingle (v : Json) : Except CodecError Single :=
  v.toDouble.map Single.ofDouble

def ofDouble (x : Double) : Json :=
  if x.isNaN then .string "NaN"
  else if x.isInfinite then .string (if x.isNegative then "-Infinity" else "Infinity")
  else .double x

def ofSingle (x : Single) : Json :=
  ofDouble x.toDouble

def ofInt (i : Int) : Json :=
  .int i

def integerKey (r : Range) (key : String) : Except CodecError Int :=
  match r.read? key.toList with
  | some i => .ok i
  | none => .error (.unexpectedJson "map key" key)

def boolKey (key : String) : Except CodecError Bool :=
  if key = "true" then .ok true
  else if key = "false" then .ok false
  else .error (.unexpectedJson "map key" key)

end Protogen.Json
