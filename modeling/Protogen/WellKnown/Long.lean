import Protogen.Codec.JsonMessage
import Protogen.Codec.Message

set_option autoImplicit false

namespace Protogen

open Number (Range intText)

structure Word (W : Type) where
  range : Range
  toInt : W → Int
  ofInt : Int → W
  codec : ValueCodec W

namespace Word

def signed : Word Int64 := ⟨.int64, Int64.toInt, Int64.ofInt, .int64⟩
def unsigned : Word UInt64 := ⟨.uint64, fun n => n.toNat, UInt64.ofInt, .uint64⟩

end Word

/-- A form for the values of a word type. -/
structure LongForm (W : Type) where
  Carrier : Type
  zero : Carrier
  -- Values that are not written in a field of their own.
  isZero : Carrier → Bool
  ofWord : W → Carrier
  toWord : Carrier → Except CodecError W
  json : JsonCodec Carrier

namespace LongForm

variable {W : Type}

-- Integers in JSON, which in every form may be given as numbers or as texts.
private def readInt (w : Word W) (v : Json) : Except CodecError Int :=
  v.toIntegerIn w.range

@[reducible] def number (w : Word W) : LongForm W where
  Carrier := W
  zero := w.ofInt 0
  isZero n := w.toInt n == 0
  ofWord n := n
  toWord n := .ok n
  json := ⟨fun v => (readInt w v).map w.ofInt, fun n => .int (w.toInt n)⟩

-- Texts. Any text may be held, but only that of an integer can be written.
@[reducible] def text (w : Word W) : LongForm W where
  Carrier := String
  zero := "0"
  isZero s := s == "" || s == "0"
  ofWord n := String.ofList (intText (w.toInt n))
  toWord s :=
    match w.range.read? (Text.trim s.toList) with
    | some i => .ok (w.ofInt i)
    | none => .error (.invalidLong s)
  json := ⟨fun v => (readInt w v).map fun i => String.ofList (intText i), .string⟩

@[reducible] def big (w : Word W) : LongForm W where
  Carrier := Int
  zero := 0
  isZero i := i == 0
  ofWord := w.toInt
  toWord i := if w.range.contains i then .ok (w.ofInt i) else .error (.overflow i)
  json := ⟨readInt w, fun i => .string (String.ofList (intText i))⟩

def codec (form : LongForm W) (w : Word W) : ValueCodec form.Carrier :=
  w.codec.via form.toWord fun n => .ok (form.ofWord n)

end LongForm

-- Messages that hold one value, so that the value can be absent where they stand.

namespace WellKnown

structure Wrapper (α : Type) where
  value : α

namespace Wrapper

variable {α : Type}

def codec (base : α) (isDefault : α → Bool) (c : ValueCodec α) : MessageCodec (Wrapper α) where
  base := ⟨base⟩
  fields := [.required 1 c isDefault (·.value) fun a _ => ⟨a⟩]

def valueCodec (c : MessageCodec (Wrapper α)) : ValueCodec α :=
  (ValueCodec.message c).via (fun a => .ok ⟨a⟩) fun w => .ok w.value

def json (base : α) (c : JsonCodec α) : JsonMessage (Wrapper α) where
  base := ⟨base⟩
  fields := [.required "value" c (·.value) fun a _ => ⟨a⟩]

def string : MessageCodec (Wrapper String) :=
  codec "" (·.isEmpty) .string

def stringJson : JsonMessage (Wrapper String) :=
  json "" .string

def int64 (form : LongForm Int64) : MessageCodec (Wrapper form.Carrier) :=
  codec form.zero form.isZero (form.codec .signed)

def int64Json (form : LongForm Int64) : JsonMessage (Wrapper form.Carrier) :=
  json form.zero form.json

end Wrapper

end WellKnown

end Protogen
