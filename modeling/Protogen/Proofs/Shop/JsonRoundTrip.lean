import Protogen.Proofs.Shop.RoundTrip
import Protogen.Proofs.WellKnown.JsonForms

set_option autoImplicit false

namespace Protogen.Shop

open Number (Double Range)
open WellKnown (DateForm)

namespace Part

theorem ofJson_object {members : List (String × Json)} {sku : String} {child : Option Part}
    (text : Json.member? members "sku" = some (.string sku))
    (absent : child = none → Json.member? members "child" = none)
    (nested : ∀ c, child = some c → ∃ v, Json.member? members "child" = some v ∧ ofJson v = .ok c) :
    ofJson (.object members) = .ok ⟨sku, child⟩ := by
  rw [ofJson]
  simp only [text, Json.toText, bind, Except.bind]
  cases child with
  | none =>
    split
    next v present =>
      rw [absent rfl] at present
      cases present
    next => rfl
  | some c =>
    obtain ⟨v, found, read⟩ := nested c rfl
    split
    next v' present =>
      cases found.symm.trans present
      rw [read]
      rfl
    next missing =>
      rw [found] at missing
      cases missing

theorem isNull_toJson (p : Part) : p.toJson.isNull = false := by
  cases p
  rw [toJson.eq_def]
  rfl

theorem ofJson_toJson (p : Part) : ofJson p.toJson = .ok p := by
  match p with
  | ⟨sku, none⟩ => exact ofJson_object rfl (fun _ => rfl) nofun
  | ⟨sku, some child⟩ =>
    have distinct : [("sku", Json.string sku), ("child", child.toJson)].Pairwise fun a b => a.1 ≠ b.1 := by simp
    apply ofJson_object
    · exact Json.member?_foldl_of_mem distinct (by simp) rfl
    · nofun
    · rintro _ ⟨⟩
      exact ⟨_, Json.member?_foldl_of_mem distinct (by simp) (isNull_toJson child), ofJson_toJson child⟩

theorem returns_json (p : Part) : json.Returns p p :=
  ⟨isNull_toJson p, ofJson_toJson p⟩

end Part

namespace ColorForm

-- A number with a name is written as that name, and any other as it is.
theorem returns_number (n : Int32) : number.json.Returns n n := by
  cases known : Color.ofNumber? n with
  | some c =>
    have value : c.number = n := by simpa using List.find?_some known
    have named : Color.numberOfText c.name = .ok c.number := by cases c <;> rfl
    simp only [JsonCodec.Returns, known, named, value]
    exact ⟨rfl, trivial⟩
  | none =>
    simp only [JsonCodec.Returns, known]
    exact JsonCodec.returns_int32 n

theorem returns_variant (c : Color.Variant) : variant.json.Returns c c := by
  refine ⟨rfl, ?_⟩
  have read : JsonCodec.int32.read (.int c.number.toInt) = .ok c.number := (JsonCodec.returns_int32 c.number).2
  simp only [read, bind, Except.bind]
  exact congrArg Except.ok (lawful_variant.ofNumber_toNumber c)

end ColorForm

namespace Form

structure Readable (F : Form) : Prop where
  signed : F.signed.Readable
  unsigned : F.unsigned.Readable
  color : ∀ c, F.color.json.Returns c c
  keys : ((Widget.json F).fields.map (·.key)).Nodup

theorem readable_plain : plain.Readable where
  signed := LongForm.readable_number Word.lawful_signed
  unsigned := LongForm.readable_number Word.lawful_unsigned
  color := ColorForm.returns_number
  keys := by decide

theorem readable_texts : texts.Readable where
  signed := LongForm.readable_text Word.lawful_signed Word.wide_signed
  unsigned := LongForm.readable_text Word.lawful_unsigned Word.wide_unsigned
  color := ColorForm.returns_number
  keys := by decide

theorem readable_bigs : bigs.Readable where
  signed := LongForm.readable_big Word.lawful_signed Word.wide_signed
  unsigned := LongForm.readable_big Word.lawful_unsigned Word.wide_unsigned
  color := ColorForm.returns_variant
  keys := by decide

end Form

namespace Widget

variable {F : Form}

structure Returned (w : Widget F) : Prop where
  weight : F.signed.Canonical w.weight
  created : ∀ a, w.created = some a → F.date.json.Returns a a
  label : F.label.Exclusive w.label
  serial : F.unsigned.Canonical w.serial
  quota : ∀ a, w.quota = some a → F.signed.Canonical a

theorem json_delivers (readable : F.Readable) (label : F.label.Lawful) {w : Widget F} (returned : w.Returned)
    {r : Double} (ratio : JsonCodec.double.Returns w.ratio r) :
    JsonMessage.Delivers w (json F).fields (w.upTo 0) { w with ratio := r } := by
  refine .through (w.upTo 1) (JsonField.delivers_required (JsonCodec.returns_string w.id)) ?_
  refine .through (w.upTo 2) (JsonField.delivers_required (readable.signed.canonical returned.weight)) ?_
  refine .through (w.upTo 3)
    (JsonField.delivers_required (JsonCodec.returns_list fun n _ => JsonCodec.returns_int32 n)) ?_
  refine .through (w.upTo 4)
    (JsonField.delivers_required (JsonCodec.returns_dict fun e _ => JsonCodec.returns_int32 e.2)) ?_
  refine .through (w.upTo 5) (JsonField.delivers_member (fun a (w : Widget F) => { w with created := a }) rfl
    returned.created) ?_
  refine .through (w.upTo 6) (JsonField.delivers_member (fun a (w : Widget F) => { w with note := a }) rfl
    fun s _ => JsonCodec.returns_string s) ?_
  -- The two fields of the label take it up from nothing.
  obtain ⟨l, noName, name, noCount, count⟩ := label.steps returned.label
  refine .through { w.upTo 6 with label := l } (JsonField.delivers_optional ?_ ?_)
    (.through (w.upTo 8) (JsonField.delivers_optional ?_ ?_) ?_)
  · intro absent
    rw [noName absent]
    rfl
  · intro s present
    exact ⟨s, JsonCodec.returns_string s, by rw [name s present]; rfl⟩
  · intro absent
    rw [← noCount absent]
    rfl
  · intro n present
    refine ⟨n, JsonCodec.returns_int32 n, ?_⟩
    rw [← count n present]
    rfl
  refine .through (w.upTo 9) (JsonField.delivers_required (readable.color w.color)) ?_
  refine .through (w.upTo 10)
    (JsonField.delivers_required (JsonCodec.returns_list fun p _ => Part.returns_json p)) ?_
  refine .through (w.upTo 11) (JsonField.delivers_member (fun a (w : Widget F) => { w with featured := a }) rfl
    fun b _ => JsonCodec.returns_bool b) ?_
  refine .through (w.upTo 12) (JsonField.delivers_required (JsonCodec.returns_bytes w.blob)) ?_
  refine .through (w.upTo 13) (JsonField.delivers_required (readable.unsigned.canonical returned.serial)) ?_
  refine .through { w.upTo 13 with ratio := r } (JsonField.delivers_required ratio) ?_
  refine .through { w.upTo 15 with ratio := r }
    (JsonField.delivers_member (fun a (w : Widget F) => { w with quota := a }) rfl
      fun a present => readable.signed.canonical (returned.quota a present)) ?_
  exact .through _ (JsonField.delivers_required (JsonCodec.returns_string w.displayName)) (.nil _)

end Widget

namespace OptionSet

theorem readable (S : OptionSet) : S.form.Readable := by
  cases S with
  | defaults | minimal => exact Form.readable_plain
  | strings => exact Form.readable_texts
  | bigints => exact Form.readable_bigs

/-- The representation of a member is one that JSON gives back: a timestamp with the nanoseconds of one second,
and in the other sets integers and moments as they are read. A date that is held as a text may be any text. -/
def HeldInJson : (S : OptionSet) → Widget S.form → Prop
  | defaults, w => ∀ t, w.created = some t → t.Normal
  | strings, w => Canonical strings w
  | bigints, w =>
    Range.int64.contains w.weight = true ∧
    Range.uint64.contains w.serial = true ∧
    ∀ a, w.quota = some a → Range.int64.contains a = true
  | minimal, _ => False

theorem returned_widget {S : OptionSet} {w : Widget S.form} (held : S.HeldInJson w)
    (exclusive : S.form.label.Exclusive w.label) : w.Returned := by
  cases S with
  | defaults =>
    exact ⟨⟨w.weight, rfl⟩, fun t present => DateForm.returns_timestamp (held t present), exclusive,
      ⟨w.serial, rfl⟩, fun a _ => ⟨a, rfl⟩⟩
  | strings =>
    obtain ⟨weight, serial, quota⟩ := canonical_longs held
    refine ⟨weight, fun m present => ?_, exclusive, serial, quota⟩
    obtain ⟨nanos, offset⟩ := m
    obtain ⟨rfl, inside⟩ := held.2.2.2 _ present
    exact DateForm.returns_moment Form.lawful_texts.signed Form.readable_texts.signed inside
  | bigints =>
    obtain ⟨weight, serial, quota⟩ := held
    exact ⟨LongForm.canonical_big Word.lawful_signed weight, fun s _ => DateForm.returns_text s, exclusive,
      LongForm.canonical_big Word.lawful_unsigned serial,
      fun a present => LongForm.canonical_big Word.lawful_signed (quota a present)⟩
  | minimal => cases held

end OptionSet

namespace Widget

/-- Every member is read as it was written, but for the bits of a ratio that is not a number. -/
theorem json_round_trip (S : OptionSet) {w : Widget S.form} (held : S.HeldInJson w)
    (exclusive : S.form.label.Exclusive w.label) :
    ∃ r, (json S.form).read ((json S.form).write w) = .ok { w with ratio := r } ∧
      (w.ratio.isNaN = false → r = w.ratio) ∧ (w.ratio.isNaN = true → r.isNaN = true) := by
  obtain ⟨r, ratio, number, nan⟩ := JsonCodec.returns_double w.ratio
  have delivers := json_delivers S.readable S.lawful.label (OptionSet.returned_widget held exclusive) ratio
  exact ⟨r, JsonMessage.read_write S.readable.keys delivers, number, nan⟩

def antique : Widget Form.texts :=
  { base .texts with
    weight := "-9223372036854775808"
    stock := Dict.empty.insert "bolt" 0
    created := some ⟨-63549360000500000000, 0⟩
    note := some ""
    label := ⟨none, some 0⟩
    color := 7
    parts := [⟨"a", some ⟨"", none⟩⟩]
    blob := ⟨#[0, 255]⟩
    serial := "18446744073709551615"
    ratio := ⟨0xFFF0000000000001⟩
    quota := some "0" }

theorem json_round_trip_antique :
    OptionSet.strings.HeldInJson antique ∧ LabelForm.fields.Exclusive antique.label ∧
      ∃ r, (json OptionSet.strings.form).read ((json OptionSet.strings.form).write antique) =
        .ok { antique with ratio := r } ∧ r.isNaN = true := by
  have held : OptionSet.strings.HeldInJson antique := by
    refine ⟨⟨-9223372036854775808, by decide, by decide⟩, ⟨18446744073709551615, by decide, by decide⟩, ?_, ?_⟩
    · rintro _ ⟨⟩
      exact ⟨0, by decide, by decide⟩
    · rintro _ ⟨⟩
      decide
  obtain ⟨r, read, -, nan⟩ := json_round_trip .strings held (.inl rfl)
  exact ⟨held, .inl rfl, r, read, nan (by decide)⟩

end Widget

end Protogen.Shop
