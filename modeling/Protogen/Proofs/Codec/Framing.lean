import Protogen.Proofs.Codec.Message
import Protogen.Proofs.Except
import Protogen.Proofs.Wire.Records
import Protogen.Proofs.Wire.Scalars

set_option autoImplicit false

namespace Protogen

open Wire (Value WireType varintBytes)

namespace ValueCodec

variable {α β : Type}

def Framed (c : ValueCodec α) : Prop :=
  ∀ a bytes, c.write a = .ok bytes → bytes.length < 4294967296 →
    ∀ tag, tag % 8 = c.wireType.number → Value Wire.recursionLimit tag bytes

theorem number_varintBytes {n : Nat} (word : n < 18446744073709551616) : Wire.Varint 0 (varintBytes n) n :=
  (Wire.shortest_varintBytes word).number

theorem value_delimited {tag : Nat} {bytes : List UInt8} (type : tag % 8 = WireType.delimited.number)
    (short : (Wire.Bytes.delimited bytes).length < 4294967296) :
    Value Wire.recursionLimit tag (Wire.Bytes.delimited bytes) := by
  rw [Wire.Bytes.delimited, List.length_append] at short
  have small : bytes.length < 4294967296 := by omega
  exact .delimited type (number_varintBytes (by omega)) (Nat.mod_eq_of_lt small).symm

theorem framed_string : string.Framed := by
  intro s bytes write short tag type
  cases write
  exact value_delimited type short

theorem framed_bytes : bytes.Framed := by
  intro b bytes write short tag type
  cases write
  exact value_delimited type short

theorem framed_int32 : int32.Framed := by
  intro i bytes write _ tag type
  cases write
  exact .varint type (number_varintBytes i.toInt64.toUInt64.toNat_lt)

theorem framed_int64 : int64.Framed := by
  intro i bytes write _ tag type
  cases write
  exact .varint type (number_varintBytes i.toUInt64.toNat_lt)

theorem framed_uint64 : uint64.Framed := by
  intro n bytes write _ tag type
  cases write
  exact .varint type (number_varintBytes n.toNat_lt)

theorem framed_bool : bool.Framed := by
  intro b bytes write _ tag type
  cases write
  exact .varint type (number_varintBytes (by cases b <;> decide))

theorem framed_double : double.Framed := by
  intro x bytes write _ tag type
  cases write
  exact .fixed64 type (Wire.length_littleEndianBytes 8 x.bits.toNat)

theorem framed_message {μ : Type} (c : MessageCodec μ) : (message c).Framed := by
  intro m bytes write short tag type
  obtain ⟨content, -, write⟩ := ok_of_bind write
  cases write
  exact value_delimited type short

theorem Framed.via {c : ValueCodec β} (framed : c.Framed) (toWire : α → Except CodecError β)
    (ofWire : β → Except CodecError α) : (c.via toWire ofWire).Framed := by
  intro a bytes write
  obtain ⟨b, -, write⟩ := ok_of_bind write
  exact framed b bytes write

end ValueCodec

namespace FieldCodec

variable {μ α : Type} {number : Nat} {c : ValueCodec α} {set : α → μ → μ}

def Framed (f : FieldCodec μ) : Prop :=
  ∀ w records, f.records w = .ok records → ∀ record ∈ records, record.length < 4294967296 → Wire.IsRecord record

theorem isRecord_tag {t : WireType} {bytes : List UInt8} (named : number < 536870912)
    (value : ∀ tag, tag % 8 = t.number → Value Wire.recursionLimit tag bytes) :
    Wire.IsRecord (varintBytes (tag number t) ++ bytes) := by
  have small := tag_lt named t
  have same := Nat.mod_eq_of_lt small
  have framed : Value Wire.recursionLimit (tag number t % 4294967296) bytes := by
    rw [same]
    exact value _ (tag_mod number t)
  exact ⟨_, .mk (ValueCodec.number_varintBytes (by omega)) framed⟩

theorem isRecord_record {a : α} {bytes : List UInt8} (named : number < 536870912) (framed : c.Framed)
    (write : record number c a = .ok bytes) (short : bytes.length < 4294967296) : Wire.IsRecord bytes := by
  obtain ⟨payload, value, write⟩ := ok_of_bind write
  cases write
  rw [List.length_append] at short
  exact isRecord_tag named (framed a payload value (by omega))

theorem framed_one {f : FieldCodec μ} (framed : c.Framed) (named : number < 536870912)
    (one : ∀ w, f.records w = .ok [] ∨ ∃ a, f.records w = (do return [← record number c a])) : f.Framed := by
  intro w records write bytes member short
  rcases one w with none | ⟨a, single⟩
  next =>
    rw [none] at write
    cases write
    cases member
  next =>
    rw [single] at write
    obtain ⟨_, first, write⟩ := ok_of_bind write
    cases write
    obtain rfl := List.mem_singleton.1 member
    exact isRecord_record named framed first short

theorem framed_required {isDefault : α → Bool} {get : μ → α} (framed : c.Framed) (named : number < 536870912) :
    (required number c isDefault get set).Framed := by
  refine framed_one framed named fun w => ?_
  cases default : isDefault (get w) with
  | true => exact .inl (by simp only [required, default, if_true]; rfl)
  | false => exact .inr ⟨get w, by simp only [required, default]; rfl⟩

theorem framed_optional {get : μ → Option α} (framed : c.Framed) (named : number < 536870912) :
    (optional number c get set).Framed := by
  refine framed_one framed named fun w => ?_
  cases value : get w with
  | none => exact .inl (by simp only [optional, value])
  | some a => exact .inr ⟨a, by simp only [optional, value]⟩

theorem framed_repeated {get : μ → List α} (framed : c.Framed) (named : number < 536870912) :
    (repeated number c get set).Framed := by
  intro w records write bytes member short
  obtain ⟨a, -, same⟩ := mem_of_mapM write bytes member
  exact isRecord_record named framed same short

theorem framed_packed {get : μ → List α} (named : number < 536870912) : (packed number c get set).Framed := by
  intro w records write bytes member short
  cases empty : (get w).isEmpty with
  | true =>
    simp only [packed, empty, if_true] at write
    cases write
    cases member
  | false =>
    simp only [packed, empty] at write
    obtain ⟨run, -, write⟩ := ok_of_bind write
    cases write
    obtain rfl := List.mem_singleton.1 member
    rw [List.length_append] at short
    exact isRecord_tag named fun tag type => ValueCodec.value_delimited type (by omega)

end FieldCodec

namespace MessageCodec

variable {μ : Type} {c : MessageCodec μ}

theorem isRecord_of_records (framed : ∀ f ∈ c.fields, f.Framed) {w : μ} {records : List (List UInt8)}
    (write : c.records w = .ok records) (short : ∀ record ∈ records, record.length < 4294967296) :
    ∀ record ∈ records, Wire.IsRecord record := by
  intro record member
  obtain ⟨all, writes, write⟩ := ok_of_bind write
  cases write
  obtain ⟨own, member', within⟩ := List.mem_flatten.1 member
  obtain ⟨f, claimed, same⟩ := mem_of_mapM writes own member'
  exact framed f claimed w own same record within (short record member)

end MessageCodec

end Protogen
