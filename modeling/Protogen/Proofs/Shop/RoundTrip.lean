import Protogen.Proofs.Shop.Form
import Protogen.Proofs.Shop.Widget

set_option autoImplicit false

namespace Protogen.Shop

open Number (Range intText)
open Time (Moment)
open WellKnown (DateForm)

namespace OptionSet

/-- The representation of a member is the one that reading gives: texts of integers of their type, moments
in UTC and texts of these, and integers of their range. -/
def Canonical : (S : OptionSet) → Widget S.form → Prop
  | defaults, _ => True
  | strings, w =>
    (∃ i, Range.int64.contains i = true ∧ w.weight = String.ofList (intText i)) ∧
    (∃ i, Range.uint64.contains i = true ∧ w.serial = String.ofList (intText i)) ∧
    (∀ a, w.quota = some a → ∃ i, Range.int64.contains i = true ∧ a = String.ofList (intText i)) ∧
    ∀ m, w.created = some m → m.offset = 0 ∧ Moment.isRepresentable m.nanos = true
  | bigints, w =>
    Range.int64.contains w.weight = true ∧
    Range.uint64.contains w.serial = true ∧
    (∀ a, w.quota = some a → Range.int64.contains a = true) ∧
    ∀ s, w.created = some s → ∃ nanos, (Moment.mk nanos 0).text? = some s
  | minimal, _ => True

theorem canonical_longs {w : Widget Form.texts} (canonical : Canonical strings w) :
    Form.texts.signed.Canonical w.weight ∧ Form.texts.unsigned.Canonical w.serial ∧
      ∀ a, w.quota = some a → Form.texts.signed.Canonical a := by
  obtain ⟨⟨i, inside, weight⟩, ⟨j, inside', serial⟩, quota, -⟩ := canonical
  refine ⟨?_, ?_, fun a present => ?_⟩
  · rw [weight]
    exact LongForm.canonical_text Word.lawful_signed inside
  · rw [serial]
    exact LongForm.canonical_text Word.lawful_unsigned inside'
  · obtain ⟨k, inside, rfl⟩ := quota a present
    exact LongForm.canonical_text Word.lawful_signed inside

theorem canonical_widget {S : OptionSet} {w : Widget S.form} (canonical : S.Canonical w)
    (exclusive : S.form.label.Exclusive w.label) (low : ∀ p ∈ w.parts, p.height ≤ 100) : w.Canonical := by
  cases S with
  | defaults | minimal =>
    exact ⟨⟨w.weight, rfl⟩, fun a _ => ⟨a, rfl, ⟨a.seconds, rfl⟩, rfl⟩, exclusive, low, ⟨w.serial, rfl⟩,
      fun a _ => ⟨a, rfl⟩⟩
  | strings =>
    obtain ⟨weight, serial, quota⟩ := canonical_longs canonical
    refine ⟨weight, fun m present => ?_, exclusive, low, serial, quota⟩
    obtain ⟨nanos, offset⟩ := m
    obtain ⟨rfl, inside⟩ := canonical.2.2.2 _ present
    exact DateForm.canonical_moment Form.lawful_texts.signed inside
  | bigints =>
    obtain ⟨weight, serial, quota, created⟩ := canonical
    refine ⟨LongForm.canonical_big Word.lawful_signed weight, fun s present => ?_, exclusive, low,
      LongForm.canonical_big Word.lawful_unsigned serial, fun a present => ?_⟩
    · obtain ⟨nanos, text⟩ := created s present
      exact DateForm.canonical_text Form.lawful_bigs.signed text
    · exact LongForm.canonical_big Word.lawful_signed (quota a present)

end OptionSet

namespace Widget

/-- Encoding never fails on canonical members, and what is encoded is decoded as long as lengths fit into
32 bits. -/
theorem round_trip (S : OptionSet) {w : Widget S.form} (canonical : S.Canonical w)
    (exclusive : S.form.label.Exclusive w.label) (low : ∀ p ∈ w.parts, p.height ≤ 100) :
    ∃ b, (codec S.form).encode w = .ok b ∧
      (b.size < 4294967296 → (codec S.form).decode b = .ok w.asRead) := by
  obtain ⟨records, -, encode, decode⟩ := MessageCodec.decode_encode (numbered S.form)
    (delivers S.lawful (OptionSet.canonical_widget canonical exclusive low))
  refine ⟨_, encode, fun short => decode (MessageCodec.short_of_flatten ?_)⟩
  simpa [ByteArray.size] using short

def sample : Widget Form.bigs :=
  { base .bigs with
    weight := -9223372036854775808
    sizes := [-1, 0]
    stock := Dict.empty.insert "bolt" 0
    created := some "1970-01-01T00:00:00Z"
    note := some ""
    label := some (.count 0)
    color := none
    parts := [⟨"a", some ⟨"", none⟩⟩]
    featured := some false
    ratio := ⟨0x8000000000000000⟩
    quota := some 0 }

theorem round_trip_sample : OptionSet.bigints.Canonical sample ∧
    ∃ b, (codec OptionSet.bigints.form).encode sample = .ok b ∧
      (b.size < 4294967296 → (codec OptionSet.bigints.form).decode b = .ok sample.asRead) := by
  have canonical : OptionSet.bigints.Canonical sample := by
    refine ⟨by decide, by decide, ?_, ?_⟩
    · rintro _ ⟨⟩
      decide
    · rintro _ ⟨⟩
      exact ⟨0, by cbv⟩
  have low : ∀ p ∈ sample.parts, p.height ≤ 100 := by decide
  exact ⟨canonical, round_trip .bigints canonical (.inl rfl) low⟩

-- Two encodings in a row are one widget written over another, member by member.

/-- Whatever bytes a widget was read from, the bytes of a canonical widget behind them write it over. -/
theorem decode_append_encode (S : OptionSet) {a : ByteArray} {x w : Widget S.form}
    (accepted : (codec S.form).decode a = .ok x) (canonical : S.Canonical w)
    (exclusive : S.form.label.Exclusive w.label) (low : ∀ p ∈ w.parts, p.height ≤ 100) :
    ∃ b, (codec S.form).encode w = .ok b ∧ (b.size < 4294967296 →
      (codec S.form).decode (a ++ b) = .ok (w.onto x) ∧
        ∀ key, (w.onto x).stock.get? key = (w.stock.get? key).or (x.stock.get? key)) := by
  have held := OptionSet.canonical_widget canonical exclusive low
  have room : ∀ p ∈ w.parts, 0 + p.height ≤ 100 := by
    simpa only [Nat.zero_add] using low
  -- The records of `w` are read in the same way whether they start from the base or from `x`.
  obtain ⟨fields, writes, pieces⟩ := MessageCodec.pieces_of_delivers (numbered S.form)
    (fun _ member => member) (delivers_onto S.lawful (by decide) held room x)
  refine ⟨⟨fields.flatten.flatten.toArray⟩, ?_, fun short => ⟨?_, w.stock.get?_onto x.stock⟩⟩
  · rw [MessageCodec.encode, MessageCodec.write, MessageCodec.records]
    change (codec S.form).fields.mapM (·.records w) = _ at writes
    rw [writes]
    rfl
  · have content : fields.flatten.flatten.length < 4294967296 := by
      simpa [ByteArray.size] using short
    have both : a ++ ⟨fields.flatten.flatten.toArray⟩ =
        (⟨(a.data.toList ++ fields.flatten.flatten).toArray⟩ : ByteArray) := by
      apply ByteArray.ext
      simp
    rw [both]
    apply (MessageCodec.decode_append_iff (local_codec S.form) accepted _).2
    exact pieces (MessageCodec.short_of_flatten content)

def named : Widget Form.plain :=
  { base .plain with
    sizes := [5]
    stock := Dict.empty.insert "a" 7
    label := ⟨some "n", none⟩
    color := 1 }

def counted : Widget Form.plain :=
  { base .plain with
    id := "b"
    sizes := [-1]
    stock := Dict.empty.insert "a" 0
    label := ⟨none, some 0⟩ }

set_option maxRecDepth 4000 in
theorem decode_named_append_counted :
    (codec OptionSet.defaults.form).decode
      ⟨#[0x3A, 0x01, 0x6E, 0x18, 0x05, 0x22, 0x05, 0x0A, 0x01, 0x61, 0x10, 0x07, 0x48, 0x01]⟩ = .ok named ∧
    ∃ b, (codec OptionSet.defaults.form).encode counted = .ok b ∧ (b.size < 4294967296 →
      (codec OptionSet.defaults.form).decode
        (⟨#[0x3A, 0x01, 0x6E, 0x18, 0x05, 0x22, 0x05, 0x0A, 0x01, 0x61, 0x10, 0x07, 0x48, 0x01]⟩ ++ b) =
          .ok (counted.onto named) ∧
      ∀ key, (counted.onto named).stock.get? key =
        (counted.stock.get? key).or (named.stock.get? key)) := by
  have read : (codec OptionSet.defaults.form).decode
      ⟨#[0x3A, 0x01, 0x6E, 0x18, 0x05, 0x22, 0x05, 0x0A, 0x01, 0x61, 0x10, 0x07, 0x48, 0x01]⟩ =
        .ok named := by cbv
  have low : ∀ p ∈ counted.parts, p.height ≤ 100 := by simp [counted, base]
  exact ⟨read, decode_append_encode .defaults read trivial (.inl rfl) low⟩

end Widget

end Protogen.Shop
