import Protogen.Proofs.Shop.Form
import Protogen.Proofs.Shop.Widget

set_option autoImplicit false

namespace Protogen.Shop.Widget

open Wire (WireType varintBytes)
open Wire.Read (Takes Pieces)
open WellKnown (Wrapper)

-- How the value of a field is laid out. For sizes this is how a single one is.
def ownType : Nat → WireType
  | 2 | 3 | 8 | 9 | 11 | 13 => .varint
  | 14 => .fixed64
  | _ => .delimited

/-- Whether the wire type is one that the field is declared with. Sizes may also come in a run. -/
def Declared (number wireType : Nat) : Prop :=
  wireType = (ownType number).number ∨ number = 3 ∧ wireType = WireType.delimited.number

instance (number wireType : Nat) : Decidable (Declared number wireType) :=
  inferInstanceAs (Decidable (_ ∨ _))

variable {F : Form}

theorem field_of_number {n : Nat} (low : 1 ≤ n) (high : n ≤ 16) : ∃ f ∈ fieldCodecs F, f.number = n := by
  have member : n ∈ (fieldCodecs F).map (·.number) := by
    rw [numbers]
    exact List.mem_range'_1.2 (by omega)
  exact List.mem_map.1 member

theorem read_sizes {t : Nat} (bits : t < 8) (wrong : ¬Declared 3 t) (w : Widget F) :
    sizesField.read (8 * 3 + t) w = sizesField.read (FieldCodec.tag 3 (ownType 3)) w := by
  have other : t ≠ WireType.delimited.number := fun same => wrong (.inr ⟨rfl, same⟩)
  have single : (8 * 3 + t) % 8 ≠ WireType.delimited.number := by omega
  rw [sizesField, FieldCodec.packed_read_single single, FieldCodec.packed_read_single (by decide)]

-- Every field reads its value alike under every tag, except sizes under that of a run.
theorem read_undeclared {t : Nat} (bits : t < 8) : ∀ f ∈ fieldCodecs F, ¬Declared f.number t →
    f.read (8 * f.number + t) = f.read (FieldCodec.tag f.number (ownType f.number)) := by
  simp only [fieldCodecs, List.forall_mem_cons]
  refine ⟨?_, ?_, ?sizes, ?_, ?_, ?_, ?_, ?_, ?_, ?_, ?_, ?_, ?_, ?_, ?_, ?_, by simp⟩
  case sizes => exact fun wrong => funext (read_sizes bits wrong)
  -- No other field looks at the tag.
  all_goals exact fun _ => rfl

def followed (a : ByteArray) (tag : Nat) (rest : List UInt8) : ByteArray :=
  ⟨(a.data.toList ++ (varintBytes tag ++ rest)).toArray⟩

theorem decode_followed_iff {a : ByteArray} {w w' : Widget F} (accepted : (codec F).decode a = .ok w)
    {f : FieldCodec (Widget F)} (member : f ∈ fieldCodecs F) {t : Nat} (bits : t < 8)
    (rest : List UInt8) : (codec F).decode (followed a (8 * f.number + t) rest) = .ok w' ↔
      ∃ payload more w₁, rest = payload ++ more ∧ Takes (f.read (8 * f.number + t) w) 0 payload w₁ ∧
        Pieces (codec F).readRecord 0 (rest.length - payload.length) w₁ more w' := by
  have small := (numbered F).small f member
  have number : (8 * f.number + t) / 8 = f.number := by omega
  have found := MessageCodec.find?_number (numbered F).distinct member
  rw [← number] at found
  rw [followed, MessageCodec.decode_append_iff (local_codec F) accepted, List.length_append]
  exact MessageCodec.pieces_tag_iff (local_codec F) (by omega) found

-- There is a value for every field, however it is laid out.
theorem value_exists (w : Widget OptionSet.defaults.form) : ∀ f ∈ fieldCodecs OptionSet.defaults.form,
    ∃ payload w', Takes (f.read (FieldCodec.tag f.number (ownType f.number)) w) 0 payload w' := by
  have empty : ∀ {μ : Type} (c : MessageCodec μ),
      Takes (ValueCodec.message c).read 0 (Wire.Bytes.delimited []) c.base := fun c =>
    MessageCodec.takes_message (by decide) (by decide) (.done _)
  have wrapped : ∀ {α : Type} (c : MessageCodec (Wrapper α)),
      Takes (Wrapper.valueCodec c).read 0 (Wire.Bytes.delimited []) c.base.value := fun c =>
    (empty c).followed (Takes.pure 0 c.base.value)
  have text : Takes Wire.Read.string 0 (Wire.Bytes.string "") "" := Wire.Read.takes_string (by decide)
  simp only [fieldCodecs, List.forall_mem_cons]
  refine ⟨?id, ?weight, ?sizes, ?stock, ?created, ?note, ?name, ?count, ?color, ?parts, ?featured, ?blob,
    ?serial, ?ratio, ?quota, ?displayName, by simp⟩
  case id | name | displayName => exact ⟨_, _, text.map _⟩
  case weight => exact ⟨_, _, ((Wire.Read.takes_int64 0 0).followed (Takes.pure 0 _)).map _⟩
  case sizes =>
    refine ⟨Wire.Bytes.int32 0, { w with sizes := w.sizes ++ [0] }, ?_⟩
    rw [FieldCodec.packed_read_single (by decide)]
    exact (Wire.Read.takes_int32 0 0).map _
  case stock => exact ⟨_, _, (empty StockEntry.codec).map _⟩
  case created => exact ⟨_, _, ((empty _).followed (Takes.pure 0 _)).map _⟩
  case note => exact ⟨_, _, (wrapped Wrapper.string).map _⟩
  case count => exact ⟨_, _, (Wire.Read.takes_int32 0 0).map _⟩
  case color => exact ⟨_, _, ((Wire.Read.takes_int32 0 0).followed (Takes.pure 0 _)).map _⟩
  case parts => exact ⟨_, _, (empty Part.codec).map _⟩
  case featured => exact ⟨_, _, (Wire.Read.takes_bool 0 false).map _⟩
  case blob => exact ⟨_, _, (Wire.Read.takes_bytes (b := .empty) (by decide)).map _⟩
  case serial => exact ⟨_, _, ((Wire.Read.takes_uint64 0 0).followed (Takes.pure 0 _)).map _⟩
  case ratio => exact ⟨_, _, (Wire.Read.takes_double 0 .zero).map _⟩
  case quota => exact ⟨_, _, (wrapped (Wrapper.int64 (.number .signed))).map _⟩

/-- A field under a wire type that it is not declared with is read as if its tag said the declared one, so
it is refused only where its value could not be read under that tag either, and is data otherwise. -/
theorem undeclared_wire_type {a : ByteArray} {w : Widget OptionSet.defaults.form}
    (accepted : (codec OptionSet.defaults.form).decode a = .ok w) {n t : Nat} (low : 1 ≤ n) (high : n ≤ 16)
    (bits : t < 8) (wrong : ¬Declared n t) :
    (∀ rest w', (codec OptionSet.defaults.form).decode (followed a (8 * n + t) rest) = .ok w' ↔
      (codec OptionSet.defaults.form).decode (followed a (FieldCodec.tag n (ownType n)) rest) = .ok w') ∧
    ∃ rest w', (codec OptionSet.defaults.form).decode (followed a (8 * n + t) rest) = .ok w' := by
  obtain ⟨f, member, rfl⟩ := field_of_number (F := OptionSet.defaults.form) low high
  have same := read_undeclared bits f member wrong
  constructor
  · intro rest w'
    rw [FieldCodec.tag, decode_followed_iff accepted member bits, same,
      decode_followed_iff accepted member (FieldCodec.wireType_lt _)]
    rfl
  · obtain ⟨payload, w', takes⟩ := value_exists w f member
    rw [← same] at takes
    refine ⟨payload, w', (decode_followed_iff accepted member bits payload).2
      ⟨payload, [], w', (List.append_nil payload).symm, takes, ?_⟩⟩
    rw [Nat.sub_self]
    exact .done w'

theorem undeclared_wire_type_seven :
    (codec OptionSet.defaults.form).decode .empty = .ok (base .plain) ∧ ¬Declared 1 7 ∧
    (∀ rest w', (codec OptionSet.defaults.form).decode (followed .empty (8 * 1 + 7) rest) = .ok w' ↔
      (codec OptionSet.defaults.form).decode (followed .empty (FieldCodec.tag 1 (ownType 1)) rest) = .ok w') ∧
    ∃ rest w', (codec OptionSet.defaults.form).decode (followed .empty (8 * 1 + 7) rest) = .ok w' := by
  have accepted : (codec OptionSet.defaults.form).decode .empty = .ok (base .plain) := rfl
  exact ⟨accepted, by decide,
    undeclared_wire_type accepted (by decide) (by decide) (by decide) (by decide)⟩

set_option maxRecDepth 4000 in
/-- A wire type that does not exist is no failure. -/
theorem nonexistent_wire_type_accepted :
    (codec OptionSet.defaults.form).decode ⟨#[0x0f, 0x00]⟩ = .ok (base .plain) := by
  cbv

end Protogen.Shop.Widget
