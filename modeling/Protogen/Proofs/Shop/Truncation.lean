import Protogen.Proofs.Codec.Framing
import Protogen.Proofs.Codec.Message
import Protogen.Proofs.Shop.RoundTrip

set_option autoImplicit false

namespace Protogen.Shop.Widget

open Wire (Boundary)
open WellKnown (DateForm Wrapper)

theorem framed_signed (F : Form) : (F.signed.codec Word.signed).Framed :=
  ValueCodec.framed_int64.via _ _

theorem framed_unsigned (F : Form) : (F.unsigned.codec Word.unsigned).Framed :=
  ValueCodec.framed_uint64.via _ _

theorem framed_wrapper {α : Type} (c : MessageCodec (Wrapper α)) : (Wrapper.valueCodec c).Framed :=
  (ValueCodec.framed_message c).via _ _

theorem framed_fieldCodecs (F : Form) : ∀ f ∈ fieldCodecs F, f.Framed := by
  simp only [fieldCodecs, List.forall_mem_cons]
  refine ⟨?id, ?weight, ?sizes, ?stock, ?created, ?note, ?name, ?count, ?color, ?parts, ?featured, ?blob,
    ?serial, ?ratio, ?quota, ?displayName, by simp⟩
  case id => exact FieldCodec.framed_required ValueCodec.framed_string (by decide)
  case weight => exact FieldCodec.framed_required (framed_signed F) (by decide)
  case sizes => exact FieldCodec.framed_packed (by decide)
  case stock => exact FieldCodec.framed_repeated (ValueCodec.framed_message _) (by decide)
  case created => exact FieldCodec.framed_optional ((ValueCodec.framed_message _).via _ _) (by decide)
  case note => exact FieldCodec.framed_optional (framed_wrapper _) (by decide)
  case name => exact FieldCodec.framed_optional ValueCodec.framed_string (by decide)
  case count => exact FieldCodec.framed_optional ValueCodec.framed_int32 (by decide)
  case color => exact FieldCodec.framed_required (ValueCodec.framed_int32.via _ _) (by decide)
  case parts => exact FieldCodec.framed_repeated (ValueCodec.framed_message _) (by decide)
  case featured => exact FieldCodec.framed_optional ValueCodec.framed_bool (by decide)
  case blob => exact FieldCodec.framed_required ValueCodec.framed_bytes (by decide)
  case serial => exact FieldCodec.framed_required (framed_unsigned F) (by decide)
  case ratio => exact FieldCodec.framed_required ValueCodec.framed_double (by decide)
  case quota => exact FieldCodec.framed_optional (framed_wrapper _) (by decide)
  case displayName => exact FieldCodec.framed_required ValueCodec.framed_string (by decide)

/-- Of an encoding, as many of the first bytes are decoded as are whole records. Any other number of them
is refused. -/
theorem decode_extract (S : OptionSet) {w : Widget S.form} (canonical : S.Canonical w)
    (exclusive : S.form.label.Exclusive w.label) (low : ∀ p ∈ w.parts, p.height ≤ 100) :
    ∃ b, (codec S.form).encode w = .ok b ∧
      (b.size < 4294967296 →
        Boundary b.data.toList 0 ∧ Boundary b.data.toList b.size ∧
        ∀ n ≤ b.size,
          ((∃ v, (codec S.form).decode (b.extract 0 n) = .ok v) ↔ Boundary b.data.toList n) ∧
          ((∃ e, (codec S.form).decode (b.extract 0 n) = .error e) ↔ ¬Boundary b.data.toList n)) := by
  have delivers := delivers S.lawful (OptionSet.canonical_widget canonical exclusive low)
  obtain ⟨records, write, reads⟩ := MessageCodec.reads_of_records (numbered S.form) delivers
  refine ⟨_, MessageCodec.encode_of_records write, fun small => ?_⟩
  have size : (ByteArray.mk records.flatten.toArray).size = records.flatten.length := by
    rw [ByteArray.size, List.size_toArray]
  rw [size] at small ⊢
  have short := MessageCodec.short_of_flatten small
  have complete := MessageCodec.isRecord_of_records (framed_fieldCodecs S.form) write short
  have boundary : ∀ {n}, Wire.EndsAt records n → Boundary records.flatten n :=
    (Wire.boundary_flatten_iff complete).2
  refine ⟨boundary (Wire.endsAt_zero _), boundary (Wire.endsAt_length _), fun n inside => ?_⟩
  have front : (ByteArray.mk records.flatten.toArray).extract 0 n = ⟨(records.flatten.take n).toArray⟩ := by
    apply ByteArray.ext
    simp [ByteArray.data_extract]
  have iff := MessageCodec.decode_take_iff (local_codec S.form) (reads short) complete inside
  rw [front, fails_iff, iff]
  exact ⟨Iff.rfl, Iff.rfl⟩

def cuttable : Widget Form.plain :=
  { base .plain with
    id := "w"
    sizes := [-1, 300]
    label := ⟨none, some 0⟩
    parts := [⟨"a", some ⟨"b", none⟩⟩] }

def cuttableBytes : ByteArray :=
  ⟨#[0x0a, 0x01, 0x77, 0x1a, 0x0c, 0xff, 0xff, 0xff, 0xff, 0xff, 0xff, 0xff, 0xff, 0xff, 0x01, 0xac, 0x02,
    0x40, 0x00, 0x52, 0x08, 0x0a, 0x01, 0x61, 0x12, 0x03, 0x0a, 0x01, 0x62]⟩

set_option maxRecDepth 4000 in
theorem decode_extract_cuttable :
    (codec OptionSet.defaults.form).encode cuttable = .ok cuttableBytes ∧
      ∀ n ≤ 29,
        ((∃ v, (codec OptionSet.defaults.form).decode (cuttableBytes.extract 0 n) = .ok v) ↔
          Boundary cuttableBytes.data.toList n) ∧
        ((∃ e, (codec OptionSet.defaults.form).decode (cuttableBytes.extract 0 n) = .error e) ↔
          ¬Boundary cuttableBytes.data.toList n) := by
  have low : ∀ p ∈ cuttable.parts, p.height ≤ 100 := by decide
  have bytes : (codec OptionSet.defaults.form).encode cuttable = .ok cuttableBytes := by cbv
  obtain ⟨b, encode, cut⟩ := decode_extract .defaults (w := cuttable) trivial (.inl rfl) low
  obtain rfl : b = cuttableBytes := Except.ok.inj (encode.symm.trans bytes)
  obtain ⟨-, -, iff⟩ := cut (by decide)
  exact ⟨bytes, iff⟩

end Protogen.Shop.Widget
