import Protogen.Codec.JsonMessage
import Protogen.Codec.Message

set_option autoImplicit false

namespace Protogen.Shop

open Wire (Read)

structure Part where
  sku : String
  child : Option Part

structure PartialPart where
  sku : Option String
  child : Option PartialPart

namespace Part

def base : Part := ⟨"", none⟩

-- The records of a part, one after the other.
def bytes : Part → List UInt8
  | ⟨sku, child⟩ =>
    (if sku.isEmpty then [] else
      Wire.varintBytes (FieldCodec.tag 1 .delimited) ++ Wire.Bytes.string sku) ++
    match child with
    | none => []
    | some c => Wire.varintBytes (FieldCodec.tag 2 .delimited) ++ Wire.Bytes.delimited c.bytes

def codecTo (levels : Nat) : MessageCodec Part where
  base := base
  fields :=
    let readChild :=
      match levels with
      | 0 => fun _ => throw (.recursionLimit Wire.recursionLimit)
      | levels + 1 => (codecTo levels).read
    [.required 1 .string (·.isEmpty) (·.sku) fun a p => { p with sku := a },
      .optional 2 ⟨.delimited, Read.message readChild, fun c => .ok (Wire.Bytes.delimited c.bytes)⟩
        (·.child) fun a p => { p with child := some a }]

-- The reader refuses deeper nesting by itself, so its limit is levels enough.
def codec : MessageCodec Part :=
  codecTo Wire.recursionLimit

def toJson : Part → Json
  | ⟨sku, child⟩ =>
    .ofMembers (("sku", .string sku) ::
      match child with
      | none => []
      | some c => [("child", c.toJson)])

private theorem sizeOf_member {members : List (String × Json)} {key : String} {v : Json}
    (h : Json.member? members key = some v) : sizeOf v < sizeOf (Json.object members) := by
  simp only [Json.member?, Option.filter_eq_some_iff, Option.map_eq_some_iff] at h
  obtain ⟨⟨m, hm, rfl⟩, -⟩ := h
  have hlt := List.sizeOf_lt_of_mem (List.mem_of_find?_eq_some hm)
  obtain ⟨k, v⟩ := m
  simp at hlt ⊢
  omega

def ofJson : Json → Except CodecError Part
  | .object members => do
    let sku ←
      match Json.member? members "sku" with
      | some v => v.toText
      | none => .ok ""
    match _h : Json.member? members "child" with
    | some v =>
      return ⟨sku, some (← ofJson v)⟩
    | none => return ⟨sku, none⟩
  | v => Json.unexpected "object" v
termination_by v => sizeOf v
decreasing_by simpa using sizeOf_member _h

def json : JsonCodec Part :=
  ⟨ofJson, toJson⟩

def ofPartial : PartialPart → Part
  | ⟨sku, child⟩ =>
    ⟨sku.getD "",
      match child with
      | none => none
      | some c => some (ofPartial c)⟩

end Part

end Protogen.Shop
