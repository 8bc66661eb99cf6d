import Protogen.Proofs.Shop.FromJson
import Protogen.Proofs.Shop.Stability

set_option autoImplicit false

namespace Protogen.Shop

theorem LabelForm.exclusive_choice (l : choice.Carrier) : choice.Exclusive l :=
  match l with
  | some (.name _) => .inr rfl
  | some (.count _) => .inl rfl
  | .none => .inl rfl

theorem LabelForm.exclusive_fields (l : LabelFields) : fields.Exclusive l ↔ ¬(l.name.isSome ∧ l.count.isSome) := by
  rw [Exclusive, not_and_or, Option.not_isSome_iff_eq_none, Option.not_isSome_iff_eq_none]

-- The partial widget has a name and a count, where these are fields of their own.
def OptionSet.Overfull : (S : OptionSet) → PartialWidget S.form → Prop
  | defaults, p | strings, p | minimal, p => p.label.name.isSome ∧ p.label.count.isSome
  | bigints, _ => False

namespace Widget

theorem exclusive_of_decode (S : OptionSet) {data : ByteArray} {w : Widget S.form}
    (read : (codec S.form).decode data = .ok w) : S.form.label.Exclusive w.label := by
  have pieces := MessageCodec.pieces_of_decode (local_codec S.form) read
  exact (MessageCodec.holds_of_pieces (keeps_readable S.lawful) pieces (Readable.base S.lawful)).label

/-- What is read has at most one member of its label, and what is taken over from a partial widget has both just
where that has both of them as fields. -/
theorem exclusive_label (S : OptionSet) :
    (∀ (data : ByteArray) (w : Widget S.form),
      (codec S.form).decode data = .ok w → S.form.label.Exclusive w.label) ∧
    (∀ (v : Json) (w : Widget S.form), (json S.form).read v = .ok w → S.form.label.Exclusive w.label) ∧
    ∀ p : PartialWidget S.form, S.form.label.Exclusive (ofPartial p).label ↔ ¬S.Overfull p := by
  refine ⟨fun data w read => exclusive_of_decode S read,
    fun v w read => (fromJson_of_read S.lawful S.yielding v w read).label, fun p => ?_⟩
  cases S with
  | defaults | strings | minimal => exact LabelForm.exclusive_fields p.label
  | bigints => exact iff_of_true (LabelForm.exclusive_choice _) not_false

set_option maxRecDepth 4000 in
-- A name that comes after a count, as bytes and as JSON with the members in this order.
theorem exclusive_label_name :
    (codec OptionSet.strings.form).decode ⟨#[0x40, 0x05, 0x3a, 0x01, 0x78]⟩ =
      .ok { base .texts with label := ⟨some "x", none⟩ } ∧
    (json OptionSet.bigints.form).read (.object [("count", .int 5), ("name", .string "x")]) =
      .ok { base .bigs with label := some (.count 5) } ∧
    LabelForm.fields.Exclusive ⟨some "x", none⟩ ∧ LabelForm.choice.Exclusive (some (.count 5)) := by
  have bytes : (codec OptionSet.strings.form).decode ⟨#[0x40, 0x05, 0x3a, 0x01, 0x78]⟩ =
      .ok { base .texts with label := ⟨some "x", none⟩ } := by cbv
  have object : (json OptionSet.bigints.form).read (.object [("count", .int 5), ("name", .string "x")]) =
      .ok { base .bigs with label := some (.count 5) } := by cbv
  exact ⟨bytes, object, (exclusive_label .strings).1 _ _ bytes, (exclusive_label .bigints).2.1 _ _ object⟩

def overfull : PartialWidget Form.plain where
  id := none
  weight := none
  sizes := none
  stock := none
  created := none
  note := none
  label := ⟨some "x", some 1⟩
  color := none
  parts := none
  featured := none
  blob := none
  serial := none
  ratio := none
  quota := none
  displayName := none

set_option maxRecDepth 4000 in
-- Its widget has both, is written with both, and is not what is read back.
theorem overfull_label :
    ¬LabelForm.fields.Exclusive (ofPartial overfull).label ∧
    (codec .plain).encode (ofPartial overfull) = .ok ⟨#[0x3a, 0x01, 0x78, 0x40, 0x01]⟩ ∧
    (codec .plain).decode ⟨#[0x3a, 0x01, 0x78, 0x40, 0x01]⟩ =
      .ok { base .plain with label := ⟨none, some 1⟩ } := by
  refine ⟨?_, by cbv, by cbv⟩
  rintro (absent | absent) <;> cases absent

end Widget

end Protogen.Shop
