import Protogen.Proofs.Codec.Resume
import Protogen.Proofs.Shop.RoundTrip
import Protogen.Proofs.Wire.Grammar

set_option autoImplicit false

namespace Protogen

open Wire.Read (Placeless)

-- No codec that a widget is read by tells where it stands.

namespace WellKnown

variable {L : LongForm Int64}

theorem Timestamp.placeless (L : LongForm Int64) : (codec L).Placeless := by
  simp only [MessageCodec.Placeless, codec, List.forall_mem_cons]
  refine ⟨FieldCodec.placeless_required ?_, FieldCodec.placeless_required ?_, by simp⟩
  · exact ValueCodec.placeless_via _ _ (Wire.Read.placeless_varint.map _)
  · exact Wire.Read.placeless_varint.map _

theorem DateForm.placeless_codec (D : DateForm L) : Placeless D.codec.read :=
  ValueCodec.placeless_via _ _ (MessageCodec.placeless_message (Timestamp.placeless L))

theorem Wrapper.placeless_valueCodec {α : Type} {base : α} {isDefault : α → Bool} {c : ValueCodec α}
    (placeless : Placeless c.read) : Placeless (valueCodec (codec base isDefault c)).read := by
  refine ValueCodec.placeless_via _ _ (MessageCodec.placeless_message ?_)
  simp only [MessageCodec.Placeless, codec, List.forall_mem_cons]
  exact ⟨FieldCodec.placeless_required placeless, by simp⟩

end WellKnown

namespace Shop

open WellKnown (DateForm Wrapper)

theorem StockEntry.placeless : StockEntry.codec.Placeless := by
  simp only [MessageCodec.Placeless, codec, List.forall_mem_cons]
  exact ⟨FieldCodec.placeless_required Wire.Read.placeless_string,
    FieldCodec.placeless_required (Wire.Read.placeless_varint.map _), by simp⟩

theorem Part.placeless (levels : Nat) : (codecTo levels).Placeless := by
  induction levels with
  | zero =>
    simp only [MessageCodec.Placeless, fields_codecTo, List.forall_mem_cons]
    refine ⟨FieldCodec.placeless_required Wire.Read.placeless_string,
      FieldCodec.placeless_optional ?_, by simp⟩
    exact Wire.Read.placeless_length.bind fun _ => (Wire.Read.Placeless.throw _).nested
  | succ levels ih =>
    simp only [MessageCodec.Placeless, fields_codecTo, List.forall_mem_cons]
    exact ⟨FieldCodec.placeless_required Wire.Read.placeless_string,
      FieldCodec.placeless_optional (MessageCodec.placeless_message ih), by simp⟩

namespace Widget

theorem placeless (F : Form) : (codec F).Placeless := by
  -- Most of the values are texts, or numbers that are varints in one form or another.
  have number {α : Type} (f : Nat → α) : Placeless (do return f (← Wire.Read.varint)) :=
    Wire.Read.placeless_varint.map f
  simp only [MessageCodec.Placeless, codec, fieldCodecs, List.forall_mem_cons]
  refine ⟨?id, ?weight, ?sizes, ?stock, ?created, ?note, ?name, ?count, ?color, ?parts, ?featured, ?blob,
    ?serial, ?ratio, ?quota, ?displayName, by simp⟩
  case id | displayName => exact FieldCodec.placeless_required Wire.Read.placeless_string
  case name => exact FieldCodec.placeless_optional Wire.Read.placeless_string
  case weight | serial | color => exact FieldCodec.placeless_required (ValueCodec.placeless_via _ _ (number _))
  case count | featured => exact FieldCodec.placeless_optional (number _)
  case sizes => exact FieldCodec.placeless_packed (number _)
  case stock => exact FieldCodec.placeless_repeated (MessageCodec.placeless_message StockEntry.placeless)
  case created => exact FieldCodec.placeless_optional (DateForm.placeless_codec F.date)
  case note => exact FieldCodec.placeless_optional (Wrapper.placeless_valueCodec Wire.Read.placeless_string)
  case parts =>
    exact FieldCodec.placeless_repeated (MessageCodec.placeless_message (Part.placeless Wire.recursionLimit))
  case blob => exact FieldCodec.placeless_required Wire.Read.placeless_bytes
  case ratio => exact FieldCodec.placeless_required Wire.Read.placeless_double
  case quota =>
    exact FieldCodec.placeless_optional
      (Wrapper.placeless_valueCodec (ValueCodec.placeless_via _ _ (number _)))

theorem find?_unknown {F : Form} {field : Nat} (unknown : field < 1 ∨ 16 < field) :
    (codec F).fields.find? (·.number == field) = none := by
  apply List.find?_eq_none.2
  intro f member same
  have known : f.number ∈ List.range' 1 16 := by
    rw [← numbers F]
    exact List.mem_map_of_mem member
  rw [eq_of_beq same] at known
  obtain ⟨low, high⟩ := List.mem_range'_1.1 known
  omega

/-- A record of a field that widgets do not have, behind bytes that are a widget, changes nothing: neither
the widget that is read in the end nor the error. -/
theorem decode_unknown (S : OptionSet) {a u : ByteArray} {w : Widget S.form} {field : Nat}
    (accepted : (codec S.form).decode a = .ok w)
    (complete : Wire.CompleteRecord Wire.recursionLimit field u.data.toList)
    (unknown : field < 1 ∨ 16 < field) (b : ByteArray) :
    (codec S.form).decode (a ++ u ++ b) = (codec S.form).decode (a ++ b) :=
  MessageCodec.decode_unclaimed (local_codec S.form) (placeless S.form) accepted complete
    (find?_unknown unknown) b

def group : List UInt8 :=
  [0x8B, 0x01] ++ ([0x08] ++ ([0x96, 0x01] ++ ([0x13] ++ ([0x14] ++ [0x8C, 0x01]))))

theorem record_group : Wire.CompleteRecord Wire.recursionLimit 17 group := by
  have number (b : UInt8) (ends : b < 128) : Wire.Varint 0 [b] b.toNat := .last ends (by decide) nofun
  have longer (b : UInt8) (goes : ¬b < 128) : Wire.Varint 0 [b, 0x01] (b.toNat % 128 + 128 * 1) :=
    .more goes (by decide) (.last (by decide) (by decide) nofun)
  have inner : Wire.Value 99 0x13 [0x14] := .group rfl (.stop (number 0x14 (by decide)) rfl rfl)
  have value : Wire.Value 99 0x08 [0x96, 0x01] := .varint rfl (longer 0x96 (by decide))
  have content : Wire.Content 99 17 ([0x08] ++ ([0x96, 0x01] ++ ([0x13] ++ ([0x14] ++ [0x8C, 0x01])))) :=
    .record (number 0x08 (by decide)) (by decide) value
      (.record (number 0x13 (by decide)) (by decide) inner (.stop (longer 0x8C (by decide)) rfl rfl))
  exact .mk (longer 0x8B (by decide)) (.group rfl content)

set_option maxRecDepth 4000 in
theorem decode_unknown_group :
    (codec OptionSet.bigints.form).decode ⟨#[0x40, 0x05]⟩ =
      .ok { base .bigs with label := some (.count 5) } ∧
    (codec OptionSet.bigints.form).decode (⟨#[0x40, 0x05]⟩ ++ ⟨group.toArray⟩ ++ ⟨#[0x3A, 0x02, 0x6E]⟩) =
      (codec OptionSet.bigints.form).decode (⟨#[0x40, 0x05]⟩ ++ ⟨#[0x3A, 0x02, 0x6E]⟩) := by
  have read : (codec OptionSet.bigints.form).decode ⟨#[0x40, 0x05]⟩ =
      .ok { base .bigs with label := some (.count 5) } := by cbv
  exact ⟨read, decode_unknown .bigints read record_group (.inr (by decide)) _⟩

end Widget

end Shop

end Protogen
