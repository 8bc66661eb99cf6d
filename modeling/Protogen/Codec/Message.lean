import Protogen.Wire.Reader
import Protogen.Wire.Writer

set_option autoImplicit false

namespace Protogen

open Number (Double)
open Wire (Read WireType varintBytes)

/-- How the values of a type are written, all in one wire type, and read. -/
structure ValueCodec (α : Type) where
  wireType : WireType
  read : Read α
  write : α → Except CodecError (List UInt8)

namespace ValueCodec

variable {α β : Type}

def string : ValueCodec String := ⟨.delimited, Read.string, fun s => .ok (Wire.Bytes.string s)⟩
def bytes : ValueCodec ByteArray := ⟨.delimited, Read.bytes, fun b => .ok (Wire.Bytes.bytes b)⟩
def int32 : ValueCodec Int32 := ⟨.varint, Read.int32, fun i => .ok (Wire.Bytes.int32 i)⟩
def int64 : ValueCodec Int64 := ⟨.varint, Read.int64, fun i => .ok (Wire.Bytes.int64 i)⟩
def uint64 : ValueCodec UInt64 := ⟨.varint, Read.uint64, fun n => .ok (Wire.Bytes.uint64 n)⟩
def bool : ValueCodec Bool := ⟨.varint, Read.bool, fun b => .ok (Wire.Bytes.bool b)⟩
def double : ValueCodec Double := ⟨.fixed64, Read.double, fun x => .ok (Wire.Bytes.double x)⟩

-- Values that stand for others on the wire. Either conversion may fail.
def via (c : ValueCodec β) (toWire : α → Except CodecError β) (ofWire : β → Except CodecError α) :
    ValueCodec α where
  wireType := c.wireType
  read := do
    match ofWire (← c.read) with
    | .ok a => return a
    | .error e => throw e
  write a := do c.write (← toWire a)

end ValueCodec

/-- How a field of a message is read and written. `read` gets the tag of the record that it reads;
`records` gives each record of the field with its tag. -/
structure FieldCodec (μ : Type) where
  number : Nat
  read : Nat → μ → Read μ
  records : μ → Except CodecError (List (List UInt8))

namespace FieldCodec

variable {μ α β : Type}

def tag (number : Nat) (wireType : WireType) : Nat :=
  8 * number + wireType.number

def record (number : Nat) (c : ValueCodec α) (a : α) : Except CodecError (List UInt8) := do
  return varintBytes (tag number c.wireType) ++ (← c.write a)

-- A field that always has a value and is left out of the encoding where that is the default.
def required (number : Nat) (c : ValueCodec α) (isDefault : α → Bool) (get : μ → α)
    (set : α → μ → μ) : FieldCodec μ where
  number := number
  read _ m := do return set (← c.read) m
  records m := do
    if isDefault (get m) then return [] else return [← record number c (get m)]

-- A field that may be absent. Where it is there it is written, whatever its value.
def optional (number : Nat) (c : ValueCodec α) (get : μ → Option α) (set : α → μ → μ) :
    FieldCodec μ where
  number := number
  read _ m := do return set (← c.read) m
  records m :=
    match get m with
    | none => .ok []
    | some a => do return [← record number c a]

-- A field of any number of values, each a record of its own.
def repeated (number : Nat) (c : ValueCodec α) (get : μ → List α) (add : α → μ → μ) :
    FieldCodec μ where
  number := number
  read _ m := do return add (← c.read) m
  records m := (get m).mapM (record number c)

/-- A field of any number of scalars. They are written as one run of bytes; a run and single values
may both be read. -/
def packed (number : Nat) (c : ValueCodec α) (get : μ → List α) (add : α → μ → μ) :
    FieldCodec μ where
  number := number
  read tag m :=
    if tag % 8 = WireType.delimited.number then do
      let n ← Read.length
      let stop := n + (← Read.index)
      Read.repeatTo stop m fun m => do return add (← c.read) m
    else do return add (← c.read) m
  records m := do
    if (get m).isEmpty then return []
    let run ← (get m).mapM c.write
    return [varintBytes (tag number .delimited) ++ Wire.Bytes.delimited run.flatten]

end FieldCodec

/-- How a message is read and written. Reading starts from `base`. -/
structure MessageCodec (μ : Type) where
  base : μ
  fields : List (FieldCodec μ)

namespace MessageCodec

variable {μ : Type}

/-- Reads a record into the message. A record that no field claims is stepped over. -/
def readRecord (c : MessageCodec μ) (m : μ) : Read μ := do
  let tag ← Read.tag
  match c.fields.find? (·.number == tag / 8) with
  | some f => f.read tag m
  | none => do
    Read.skip tag
    return m

-- Reads records as long as the position is before the end of the message.
def read (c : MessageCodec μ) (length : Option Nat) : Read μ := do
  let stop ← Read.endOf length
  Read.repeatTo stop c.base c.readRecord

def records (c : MessageCodec μ) (m : μ) : Except CodecError (List (List UInt8)) := do
  return (← c.fields.mapM (·.records m)).flatten

def write (c : MessageCodec μ) (m : μ) : Except CodecError (List UInt8) := do
  return (← c.records m).flatten

def decode (c : MessageCodec μ) (data : ByteArray) : Except CodecError μ :=
  match c.read none (.ofBytes data) with
  | .ok m _ => .ok m
  | .error e _ => .error e

def encode (c : MessageCodec μ) (m : μ) : Except CodecError ByteArray := do
  return ⟨(← c.write m).toArray⟩

end MessageCodec

def ValueCodec.message {μ : Type} (c : MessageCodec μ) : ValueCodec μ where
  wireType := .delimited
  read := Read.message c.read
  write m := do return Wire.Bytes.delimited (← c.write m)

end Protogen
