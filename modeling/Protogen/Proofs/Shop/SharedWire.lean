import Protogen.Proofs.Shop.RoundTrip
import Protogen.Proofs.WellKnown.OneWire

set_option autoImplicit false

namespace Protogen.Shop

open WellKnown (DateForm Timestamp Wrapper)

variable {F : Form}

namespace ColorForm

-- The colour stands for the number, and is left out if that is zero.
def Holds (C : ColorForm) (c : C.Carrier) (n : Int32) : Prop :=
  C.toNumber c = n ∧ C.isBase c = (n == 0)

theorem holds_variant {n : Int32} (known : n = 0 ∨ n = 1 ∨ n = 2) :
    variant.Holds (variant.ofNumber n) n := by
  rcases known with rfl | rfl | rfl <;> exact ⟨by decide, by decide⟩

end ColorForm

-- What is left out for a zero in plain form is left out in this form too.
structure Form.ElidesZeros (F : Form) : Prop where
  signed : F.signed.ElidesZero .signed
  unsigned : F.unsigned.ElidesZero .unsigned

namespace Widget

/-- The widgets have the same members, each in the form of its own widget. A zero may have either sign. -/
structure Represents (v : Widget F) (w : Widget .plain) : Prop where
  id : v.id = w.id
  weight : v.weight = F.signed.ofWord w.weight
  sizes : v.sizes = w.sizes
  stock : v.stock = w.stock
  created : Option.Rel F.date.Holds v.created w.created
  note : v.note = w.note
  name : F.label.name? v.label = w.label.name
  count : F.label.count? v.label = w.label.count
  color : F.color.Holds v.color w.color
  parts : v.parts = w.parts
  featured : v.featured = w.featured
  blob : v.blob = w.blob
  serial : v.serial = F.unsigned.ofWord w.serial
  ratio : v.ratio = w.ratio ∨ v.ratio.isZero = true ∧ w.ratio.isZero = true
  quota : v.quota = w.quota.map F.signed.ofWord
  displayName : v.displayName = w.displayName

namespace Represents

variable {v : Widget F} {w : Widget .plain}

theorem records (form : F.Lawful) (zeros : F.ElidesZeros) (same : v.Represents w) :
    (codec F).records v = (codec .plain).records w := by
  have held (q : Option Int64) : Option.Rel (fun a n => a = F.signed.ofWord n) (q.map F.signed.ofWord) q := by
    cases q with
    | none => exact .none
    | some n => exact .some rfl
  apply MessageCodec.records_congr
  simp only [codec, fieldCodecs, List.map_cons, List.map_nil, List.cons.injEq, and_true]
  -- Members of one type are written by one codec; the others stand for each other on the wire.
  refine ⟨?id, ?weight, ?sizes, ?stock, ?created, ?note, ?name, ?count, ?color, ?parts, ?featured, ?blob,
    ?serial, ?ratio, ?quota, ?displayName⟩
  case id => simp only [FieldCodec.required, same.id]
  case weight =>
    apply FieldCodec.records_required
    · rw [same.weight, zeros.signed]
    · rfl
    · rw [same.weight, LongForm.write_ofWord form.signed]
      rfl
  case sizes => simp only [FieldCodec.packed, same.sizes]
  case stock => simp only [FieldCodec.repeated, same.stock]
  case created =>
    apply FieldCodec.records_optional
    · rfl
    · exact same.created
    · exact DateForm.write_holds form.signed zeros.signed
  case note => simp only [FieldCodec.optional, same.note]
  case name => simp only [FieldCodec.optional, same.name]
  case count => simp only [FieldCodec.optional, same.count]
  case color =>
    apply FieldCodec.records_required
    · exact same.color.2
    · rfl
    · simp only [ValueCodec.via, same.color.1]
  case parts => simp only [FieldCodec.repeated, same.parts]
  case featured => simp only [FieldCodec.optional, same.featured]
  case blob => simp only [FieldCodec.required, same.blob]
  case serial =>
    apply FieldCodec.records_required
    · rw [same.serial, zeros.unsigned]
    · rfl
    · rw [same.serial, LongForm.write_ofWord form.unsigned]
      rfl
  case ratio =>
    rcases same.ratio with ratio | ⟨zero, zero'⟩
    · simp only [FieldCodec.required, ratio]
    · simp only [FieldCodec.required, zero, zero', if_true]
  case quota =>
    apply FieldCodec.records_optional
    · rfl
    · rw [same.quota]
      exact held w.quota
    · rintro _ n rfl
      exact Wrapper.write_congr (zeros.signed n) rfl (LongForm.write_ofWord form.signed n)
  case displayName => simp only [FieldCodec.required, same.displayName]

theorem asRead (same : v.Represents w) : v.asRead.Represents w where
  __ := same
  ratio := by
    by_cases zero : v.ratio.isZero = true
    · have both : w.ratio.isZero = true := by
        rcases same.ratio with ratio | ⟨-, zero'⟩
        · rwa [← ratio]
        · exact zero'
      refine .inr ⟨?_, both⟩
      simp only [Widget.asRead, zero, if_true]
      decide
    · simpa [Widget.asRead, zero] using same.ratio

theorem canonical (same : v.Represents w) (exclusive : Form.plain.label.Exclusive w.label)
    (low : ∀ p ∈ w.parts, p.height ≤ 100) : v.Canonical where
  weight := ⟨w.weight, same.weight.symm⟩
  created a present := by
    have created := same.created
    rw [present] at created
    generalize w.created = t at created
    cases created with
    | @some _ t holds => exact ⟨t.held F.signed, holds.1, ⟨t.seconds, rfl⟩, holds.2⟩
  label := by
    rw [LabelForm.Exclusive, same.name, same.count]
    exact exclusive
  parts := by rwa [same.parts]
  serial := ⟨w.serial, same.serial.symm⟩
  quota a present := by
    obtain ⟨n, -, rfl⟩ := Option.map_eq_some_iff.1 (same.quota.symm.trans present)
    exact ⟨n, rfl⟩

end Represents

theorem exists_represents {w : Widget .plain} (created : ∀ t, w.created = some t → ∃ a, F.date.Holds a t)
    (label : ∃ l, F.label.name? l = w.label.name ∧ F.label.count? l = w.label.count)
    (color : ∃ c, F.color.Holds c w.color) : ∃ v : Widget F, v.Represents w := by
  have date : ∃ d, Option.Rel F.date.Holds d w.created := by
    cases present : w.created with
    | none => exact ⟨none, .none⟩
    | some t =>
      obtain ⟨a, holds⟩ := created t present
      exact ⟨some a, .some holds⟩
  obtain ⟨d, created⟩ := date
  obtain ⟨l, name, count⟩ := label
  obtain ⟨c, color⟩ := color
  let v : Widget F :=
    { w with
      weight := F.signed.ofWord w.weight
      created := d
      label := l
      color := c
      serial := F.unsigned.ofWord w.serial
      quota := w.quota.map F.signed.ofWord }
  exact ⟨v, rfl, rfl, rfl, rfl, created, rfl, name, count, color, rfl, rfl, rfl, rfl, .inl rfl, rfl, rfl⟩

/-- The bytes are decoded, and what they are decoded to is encoded as these bytes. -/
def Reencodes (F : Form) (b : ByteArray) : Prop :=
  ∃ v, (codec F).decode b = .ok v ∧ (codec F).encode v = .ok b

theorem reencodes {w : Widget .plain} {b : ByteArray} (form : F.Lawful) (zeros : F.ElidesZeros)
    (exclusive : Form.plain.label.Exclusive w.label) (low : ∀ p ∈ w.parts, p.height ≤ 100)
    (encoded : (codec .plain).encode w = .ok b) (short : b.size < 4294967296)
    (held : ∃ v : Widget F, v.Represents w) : Reencodes F b := by
  obtain ⟨v, same⟩ := held
  obtain ⟨records, -, encode, decode⟩ :=
    MessageCodec.decode_encode (numbered F) (delivers form (same.canonical exclusive low))
  rw [MessageCodec.encode_congr (same.records form zeros), encoded] at encode
  cases encode
  refine ⟨v.asRead, decode (MessageCodec.short_of_flatten ?_), ?_⟩
  · simpa [ByteArray.size] using short
  · rw [MessageCodec.encode_congr (same.asRead.records form zeros), encoded]

end Widget

namespace OptionSet

theorem elidesZeros (S : OptionSet) : S.form.ElidesZeros := by
  cases S with
  | defaults | minimal => exact ⟨LongForm.elidesZero_number, LongForm.elidesZero_number⟩
  | strings => exact ⟨LongForm.elidesZero_text, LongForm.elidesZero_text⟩
  | bigints => exact ⟨LongForm.elidesZero_big, LongForm.elidesZero_big⟩

end OptionSet

namespace LabelForm

theorem exists_choice {l : LabelFields} (exclusive : fields.Exclusive l) :
    ∃ l', choice.name? l' = l.name ∧ choice.count? l' = l.count := by
  obtain ⟨name, count⟩ := l
  cases name with
  | some s =>
    obtain absent | rfl : some s = Option.none ∨ count = Option.none := exclusive
    · cases absent
    · exact ⟨some (.name s), rfl, rfl⟩
  | none =>
    cases count with
    | none => exact ⟨.none, rfl, rfl⟩
    | some n => exact ⟨some (.count n), rfl, rfl⟩

end LabelForm

namespace Widget

/-- What is encoded in plain form is one message for all the option sets, as far as they can hold its
timestamp and its colour. -/
theorem shared_wire {w : Widget OptionSet.defaults.form} (exclusive : LabelForm.fields.Exclusive w.label)
    (low : ∀ p ∈ w.parts, p.height ≤ 100) :
    ∃ b, (codec OptionSet.defaults.form).encode w = .ok b ∧ (b.size < 4294967296 →
      Reencodes OptionSet.minimal.form b ∧
      ((∀ t, w.created = some t → t.Normal ∧ t.InYears (-9999) 9999) →
        Reencodes OptionSet.strings.form b) ∧
      ((∀ t, w.created = some t → t.Normal ∧ t.InYears 0 9999) → w.color = 0 ∨ w.color = 1 ∨ w.color = 2 →
        Reencodes OptionSet.bigints.form b)) := by
  obtain ⟨b, encoded, -⟩ := round_trip .defaults (w := w) trivial exclusive low
  refine ⟨b, encoded, fun short => ?_⟩
  have again (S : OptionSet) (held : ∃ v : Widget S.form, v.Represents w) : Reencodes S.form b :=
    reencodes S.lawful S.elidesZeros exclusive low encoded short held
  refine ⟨again .minimal ?_, fun dates => again .strings ?_, fun dates known => again .bigints ?_⟩
  · exact exists_represents (fun t _ => ⟨t, DateForm.holds_timestamp t⟩) ⟨w.label, rfl, rfl⟩
      ⟨w.color, rfl, rfl⟩
  · refine exists_represents (fun t present => ?_) ⟨w.label, rfl, rfl⟩ ⟨w.color, rfl, rfl⟩
    obtain ⟨normal, years⟩ := dates t present
    exact ⟨_, DateForm.holds_moment Form.lawful_texts.signed normal years⟩
  · refine exists_represents (fun t present => ?_) (LabelForm.exists_choice exclusive)
      ⟨_, ColorForm.holds_variant known⟩
    obtain ⟨normal, years⟩ := dates t present
    exact DateForm.holds_text Form.lawful_bigs.signed normal years

def ancient : Widget .plain :=
  { base .plain with
    weight := -1
    created := some ⟨-62167219200, 500000000⟩
    label := ⟨none, some 0⟩
    color := 2
    serial := 18446744073709551615
    ratio := ⟨0x8000000000000000⟩
    quota := some 0 }

def ancientBytes : ByteArray := ⟨#[
  0x10, 0xFF, 0xFF, 0xFF, 0xFF, 0xFF, 0xFF, 0xFF, 0xFF, 0xFF, 0x01,
  0x2A, 0x11, 0x08, 0x80, 0x88, 0xAE, 0xB4, 0x98, 0xFE, 0xFF, 0xFF, 0xFF, 0x01, 0x10, 0x80, 0xCA, 0xB5, 0xEE, 0x01,
  0x40, 0x00,
  0x48, 0x02,
  0x68, 0xFF, 0xFF, 0xFF, 0xFF, 0xFF, 0xFF, 0xFF, 0xFF, 0xFF, 0x01,
  0x7A, 0x00]⟩

set_option maxRecDepth 4000 in
theorem shared_wire_ancient :
    LabelForm.fields.Exclusive ancient.label ∧ (∀ p ∈ ancient.parts, p.height ≤ 100) ∧
      (codec OptionSet.defaults.form).encode ancient = .ok ancientBytes ∧ ancientBytes.size = 47 ∧
      Reencodes OptionSet.minimal.form ancientBytes ∧ Reencodes OptionSet.strings.form ancientBytes ∧
      Reencodes OptionSet.bigints.form ancientBytes := by
  have low : ∀ p ∈ ancient.parts, p.height ≤ 100 := nofun
  have bytes : (codec OptionSet.defaults.form).encode ancient = .ok ancientBytes := by cbv
  have size : ancientBytes.size = 47 := by decide
  refine ⟨.inl rfl, low, bytes, size, ?_⟩
  obtain ⟨b, encoded, same⟩ := shared_wire (w := ancient) (.inl rfl) low
  rw [bytes] at encoded
  cases encoded
  have short : ancientBytes.size < 4294967296 := by
    rw [size]
    decide
  obtain ⟨minimal, strings, bigints⟩ := same short
  refine ⟨minimal, strings ?_, bigints ?_ (.inr (.inr rfl))⟩ <;>
  · rintro _ ⟨⟩
    decide

end Widget

end Protogen.Shop
