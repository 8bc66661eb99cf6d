import Protogen.Codec.Base64
import Protogen.Json.Parser
import Protogen.Json.Scalar

set_option autoImplicit false

namespace Protogen

open Number (Double Range)

structure JsonCodec (α : Type) where
  read : Json → Except CodecError α
  write : α → Json

namespace JsonCodec

variable {α : Type}

def string : JsonCodec String := ⟨Json.toText, .string⟩
def bool : JsonCodec Bool := ⟨Json.toBool, .bool⟩
def double : JsonCodec Double := ⟨Json.toDouble, Json.ofDouble⟩

def int32 : JsonCodec Int32 where
  read v := (v.toIntegerIn .int32).map Int32.ofInt
  write i := .int i.toInt

def bytes : JsonCodec ByteArray where
  read v := do
    match Base64.decode? (← v.toText) with
    | some b => return b
    | none => throw .invalidBase64
  write b := .string (Base64.encode b)

def list (c : JsonCodec α) : JsonCodec (List α) where
  read v := do (← v.toArray).mapM c.read
  write as := .array (as.map c.write)

def dict (c : JsonCodec α) : JsonCodec (Dict α) where
  read v := do
    (← v.toObject).foldlM (fun d m => do return d.insert m.1 (← c.read m.2)) Dict.empty
  write d := .object (d.entries.map fun e => (e.1, c.write e.2))

end JsonCodec

structure JsonField (μ : Type) where
  key : String
  read : Json → μ → Except CodecError μ
  write : μ → Option Json

namespace JsonField

variable {μ α : Type}

-- A field that always has a value, which is always written.
def required (key : String) (c : JsonCodec α) (get : μ → α) (set : α → μ → μ) : JsonField μ where
  key := key
  read v m := do return set (← c.read v) m
  write m := some (c.write (get m))

def optional (key : String) (c : JsonCodec α) (get : μ → Option α) (set : α → μ → μ) :
    JsonField μ where
  key := key
  read v m := do return set (← c.read v) m
  write m := (get m).map c.write

end JsonField

structure JsonMessage (μ : Type) where
  base : μ
  fields : List (JsonField μ)

namespace JsonMessage

variable {μ : Type}

-- Reads the fields in their own order, whatever the order of the members. A member that is missing or null leaves
-- its field as it is, and a member without a field is ignored.
def read (c : JsonMessage μ) (v : Json) : Except CodecError μ := do
  let members ← v.toObject
  c.fields.foldlM (fun m f =>
    match Json.member? members f.key with
    | some v => f.read v m
    | none => .ok m) c.base

def write (c : JsonMessage μ) (m : μ) : Json :=
  .ofMembers (c.fields.filterMap fun f => (f.write m).map fun v => (f.key, v))

def codec (c : JsonMessage μ) : JsonCodec μ :=
  ⟨c.read, c.write⟩

def readText (c : JsonMessage μ) (text : String) : Except CodecError μ :=
  match Json.parse? text with
  | some v => c.read v
  | none => .error .invalidJson

end JsonMessage

end Protogen
