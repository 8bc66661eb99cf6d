import Protogen.Proofs.Codec.Message
import Protogen.Proofs.Shop.FromJson
import Protogen.Proofs.Shop.Widget
import Protogen.Proofs.WellKnown.Passing

set_option autoImplicit false

namespace Protogen.Shop

open Number (Range)
open Time (Moment)
open WellKnown (DateForm)

theorem rel_of_map_eq {α β : Type} {f : α → β} {x y : Option α} (same : x.map f = y.map f) :
    Option.Rel (fun a b => f a = f b) x y := by
  cases x with
  | none =>
    cases y with
    | none => exact .none
    | some b => cases same
  | some a =>
    cases y with
    | none => cases same
    | some b => exact .some (Option.some.inj same)

namespace Widget

variable {F : Form}

def createdField : FieldCodec (Widget F) :=
  .optional 5 F.date.codec (·.created) fun a w => { w with created := some a }

-- A date with the same timestamp is written alike, and so is the widget.
theorem encode_created {w : Widget F} {d : Option F.date.Carrier}
    (same : d.map F.date.toTimestamp = w.created.map F.date.toTimestamp) :
    (codec F).encode { w with created := d } = (codec F).encode w := by
  refine MessageCodec.encode_congr (MessageCodec.records_congr (List.map_congr_left ?_))
  simp only [codec, fieldCodecs, List.forall_mem_cons]
  refine ⟨rfl, rfl, rfl, rfl, ?created, rfl, rfl, rfl, rfl, rfl, rfl, rfl, rfl, rfl, rfl, rfl, by simp⟩
  refine FieldCodec.records_optional rfl (rel_of_map_eq same) fun same => ?_
  simp only [DateForm.codec, ValueCodec.via, same]

theorem decode_of_passes (lawful : F.Lawful) {w : Widget F} (accepted : w.FromJson)
    (low : ∀ p ∈ w.parts, p.height ≤ 100) (passes : ∀ a, w.created = some a → F.date.Passes a) {b : ByteArray}
    (encoded : (codec F).encode w = .ok b) (short : b.size < 4294967296) :
    ∃ d, d.map F.date.toTimestamp = w.created.map F.date.toTimestamp ∧
      (codec F).decode b = .ok (asRead { w with created := d }) := by
  obtain ⟨d, same, canonical⟩ : ∃ d, d.map F.date.toTimestamp = w.created.map F.date.toTimestamp ∧
      ∀ a, d = some a → F.date.Canonical a := by
    cases present : w.created with
    | none => exact ⟨none, rfl, nofun⟩
    | some a =>
      obtain ⟨a', canonical, same⟩ := passes a present
      refine ⟨some a', congrArg some same, ?_⟩
      rintro _ ⟨⟩
      exact canonical
  have held : Canonical { w with created := d } :=
    ⟨accepted.weight, canonical, accepted.label, low, accepted.serial, accepted.quota⟩
  obtain ⟨records, -, encode, decode⟩ := MessageCodec.decode_encode (numbered F) (delivers lawful held)
  rw [encode_created same, encoded] at encode
  cases encode
  refine ⟨d, same, decode (MessageCodec.short_of_flatten ?_)⟩
  simpa [ByteArray.size] using short

theorem decode_of_refuses (lawful : F.Lawful) {w : Widget F} (weight : F.signed.Canonical w.weight)
    {a : F.date.Carrier} {e : CodecError} (present : w.created = some a) (refuses : F.date.codec.Refuses 0 a e)
    {b : ByteArray} (encoded : (codec F).encode w = .ok b) (short : b.size < 4294967296) :
    (codec F).decode b = .error e := by
  -- The fields in front of the date are read as they were written.
  have front : ∃ m, MessageCodec.Delivers 0 w ((fieldCodecs F).take 4) (base F) m :=
    ⟨_, .cons (FieldCodec.delivers_unless rfl fun _ => ValueCodec.carries_string 0 w.id)
      (.cons (FieldCodec.delivers_unless rfl fun _ =>
          LongForm.carries_codec Word.lawful_signed lawful.signed 0 weight)
        (.cons delivers_sizes (.cons (delivers_stock (by decide)) (.nil _))))⟩
  obtain ⟨m, delivers⟩ := front
  have split : (codec F).fields = (fieldCodecs F).take 4 ++ createdField :: (fieldCodecs F).drop 5 := rfl
  exact MessageCodec.decode_of_refuses (numbered F) split delivers (FieldCodec.refuses_optional present refuses)
    encoded short

theorem toTimestamp_of_encode {w : Widget F} {b : ByteArray} (encoded : (codec F).encode w = .ok b)
    {a : F.date.Carrier} (present : w.created = some a) : ∃ t, F.date.toTimestamp a = .ok t := by
  obtain ⟨records, written, -⟩ := MessageCodec.encode_eq_ok encoded
  obtain ⟨record, -, single⟩ := ok_of_mem_mapM written createdField (by simp [codec, fieldCodecs, createdField])
  simp only [createdField, FieldCodec.optional, present, FieldCodec.record, DateForm.codec, ValueCodec.via] at single
  obtain ⟨_, single, -⟩ := ok_of_bind single
  obtain ⟨_, single, -⟩ := ok_of_bind single
  obtain ⟨t, out, -⟩ := ok_of_bind single
  exact ⟨t, out⟩

end Widget

namespace OptionSet

/-- The date, if there is one, is of a year that can be held in UTC. Moments have the years of the calendar,
and texts those of four digits. -/
def Dated : (S : OptionSet) → Widget S.form → Prop
  | defaults, _ | minimal, _ => True
  | strings, w => ∀ m, w.created = some m → m.InYears (-9999) 9999
  | bigints, w => ∀ s m, w.created = some s → Moment.parse? s = some m → m.InYears 0 9999

end OptionSet

namespace Widget

/-- Bytes that are written for what was accepted as JSON are read as the same widget with its date in UTC, and
fail where there is no such date. -/
theorem decode_of_accepted (S : OptionSet) {v : Json} {w : Widget S.form} {b : ByteArray}
    (accepted : (json S.form).read v = .ok w) (low : ∀ p ∈ w.parts, p.height ≤ 100)
    (encoded : (codec S.form).encode w = .ok b) (short : b.size < 4294967296) :
    (S.Dated w → ∃ d, d.map S.form.date.toTimestamp = w.created.map S.form.date.toTimestamp ∧
      (codec S.form).decode b = .ok (asRead { w with created := d })) ∧
    (¬S.Dated w → (codec S.form).decode b = .error .invalidTimestamp) := by
  have given := fromJson_of_read S.lawful S.yielding v w accepted
  cases S with
  | defaults | minimal =>
    refine ⟨fun _ => decode_of_passes Form.lawful_plain given low (fun t _ => ?_) encoded short,
      fun undated => absurd trivial undated⟩
    exact DateForm.passes_of_canonical ⟨t, rfl, ⟨t.seconds, rfl⟩, rfl⟩
  | strings =>
    constructor
    · intro dated
      exact decode_of_passes Form.lawful_texts given low
        (fun m present => DateForm.passes_moment Form.lawful_texts.signed (dated m present)) encoded short
    · intro undated
      simp only [OptionSet.Dated, not_forall] at undated
      obtain ⟨m, present, outside⟩ := undated
      obtain ⟨v', read⟩ := given.created m present
      exact decode_of_refuses Form.lawful_texts given.weight present
        (DateForm.refuses_moment Form.lawful_texts.signed (by decide) (DateForm.word_of_read read) outside)
        encoded short
  | bigints =>
    constructor
    · intro dated
      refine decode_of_passes Form.lawful_bigs given low (fun s present => ?_) encoded short
      obtain ⟨t, out⟩ := toTimestamp_of_encode encoded present
      obtain ⟨m, parsed⟩ := DateForm.exists_of_toTimestamp_text out
      exact DateForm.passes_text Form.lawful_bigs.signed parsed (dated s m present parsed)
    · intro undated
      simp only [OptionSet.Dated, not_forall] at undated
      obtain ⟨s, m, present, parsed, outside⟩ := undated
      exact decode_of_refuses Form.lawful_bigs given.weight present
        (DateForm.refuses_text Form.lawful_bigs.signed (by decide) parsed outside) encoded short

set_option maxRecDepth 8000 in
-- A leap day on a clock that is ahead, in UTC still the day before.
theorem decode_of_accepted_leap_day :
    (json OptionSet.strings.form).read (.object [("created", .string "2024-02-29T01:30:00+02:00")]) =
      .ok { base .texts with created := some ⟨1709163000000000000, 120⟩ } ∧
    (codec OptionSet.strings.form).encode { base .texts with created := some ⟨1709163000000000000, 120⟩ } =
      .ok ⟨#[0x2a, 0x06, 0x08, 0xf8, 0x83, 0xff, 0xae, 0x06]⟩ ∧
    ∃ d, d.map OptionSet.strings.form.date.toTimestamp =
        some (OptionSet.strings.form.date.toTimestamp ⟨1709163000000000000, 120⟩) ∧
      (codec OptionSet.strings.form).decode ⟨#[0x2a, 0x06, 0x08, 0xf8, 0x83, 0xff, 0xae, 0x06]⟩ =
        .ok (asRead { base .texts with created := d }) := by
  have accepted : (json OptionSet.strings.form).read
      (.object [("created", .string "2024-02-29T01:30:00+02:00")]) =
        .ok { base .texts with created := some ⟨1709163000000000000, 120⟩ } := by cbv
  have encoded : (codec OptionSet.strings.form).encode
      { base .texts with created := some ⟨1709163000000000000, 120⟩ } =
        .ok ⟨#[0x2a, 0x06, 0x08, 0xf8, 0x83, 0xff, 0xae, 0x06]⟩ := by cbv
  have dated : OptionSet.strings.Dated { base .texts with created := some ⟨1709163000000000000, 120⟩ } := by
    rintro _ ⟨⟩
    decide
  have low (p : Part) (member : p ∈ (base Form.texts).parts) : p.height ≤ 100 := absurd member List.not_mem_nil
  exact ⟨accepted, encoded, (decode_of_accepted .strings accepted low encoded (by decide)).1 dated⟩

set_option maxRecDepth 8000 in
/-- The last second of the year 9999 on a clock that is behind is a second of no year in UTC. -/
theorem decode_of_last_second :
    (json OptionSet.strings.form).read (.object [("created", .string "9999-12-31T23:59:59-01:00")]) =
      .ok { base .texts with created := some ⟨253402304399000000000, -60⟩ } ∧
    (codec OptionSet.strings.form).encode { base .texts with created := some ⟨253402304399000000000, -60⟩ } =
      .ok ⟨#[0x2a, 0x07, 0x08, 0x8f, 0x9f, 0xd1, 0xff, 0xaf, 0x07]⟩ ∧
    (codec OptionSet.strings.form).decode ⟨#[0x2a, 0x07, 0x08, 0x8f, 0x9f, 0xd1, 0xff, 0xaf, 0x07]⟩ =
      .error .invalidTimestamp := by
  have encoded : (codec OptionSet.strings.form).encode
      { base .texts with created := some ⟨253402304399000000000, -60⟩ } =
        .ok ⟨#[0x2a, 0x07, 0x08, 0x8f, 0x9f, 0xd1, 0xff, 0xaf, 0x07]⟩ := by cbv
  have refuses := DateForm.refuses_moment (m := ⟨253402304399000000000, -60⟩)
    Form.lawful_texts.signed (by decide : 0 < Wire.recursionLimit) (by decide) (by decide)
  exact ⟨by cbv, encoded,
    decode_of_refuses Form.lawful_texts Form.lawful_texts.signed.canonical_zero rfl refuses encoded (by decide)⟩

end Widget

end Protogen.Shop
