import Protogen.Proofs.Codec.Reordering
import Protogen.Proofs.Shop.Truncation

set_option autoImplicit false

namespace Protogen.Shop

open Wire (fieldOf?)
open WellKnown (DateForm Wrapper)

namespace Widget

variable {F : Form} {w : Widget F}

/-- What a record of the field does to a widget that it is read into, where it is written for another one. -/
inductive Change (w : Widget F) : Nat → (Widget F → Widget F) → Prop
  | id : Change w 1 fun x => { x with id := w.id }
  | weight : Change w 2 fun x => { x with weight := w.weight }
  | sizes : Change w 3 fun x => { x with sizes := x.sizes ++ w.sizes }
  | stock {key : String} {value : Int32} (entry : (key, value) ∈ w.stock.entries) :
      Change w 4 fun x => { x with stock := x.stock.insert key value }
  | created : Change w 5 fun x => { x with created := w.created }
  | note : Change w 6 fun x => { x with note := w.note }
  | name : Change w 7 fun x => { x with label := w.label }
  | count : Change w 8 fun x => { x with label := w.label }
  | color : Change w 9 fun x => { x with color := w.color }
  | part (p : Part) : Change w 10 fun x => { x with parts := x.parts ++ [p] }
  | featured : Change w 11 fun x => { x with featured := w.featured }
  | blob : Change w 12 fun x => { x with blob := w.blob }
  | serial : Change w 13 fun x => { x with serial := w.serial }
  | ratio : Change w 14 fun x => { x with ratio := w.ratio }
  | quota : Change w 15 fun x => { x with quota := w.quota }
  | displayName : Change w 16 fun x => { x with displayName := w.displayName }

theorem Change.comm {n n' : Nat} {change change' : Widget F → Widget F} (first : Change w n change)
    (second : Change w n' change') (apart : ¬(n = 10 ∧ n' = 10)) (x : Widget F) :
    change' (change x) = change (change' x) := by
  cases first <;> cases second
  case stock.stock key value entry key' value' entry' =>
    have stock := Dict.insert_comm_of_mem entry' entry x.stock
    exact congrArg (fun stock => { x with stock := stock }) stock
  case part.part => exact absurd ⟨rfl, rfl⟩ apart
  -- Any other two are about different members, or are the same change.
  all_goals rfl

theorem makes_fieldCodecs (lawful : F.Lawful) (canonical : w.Canonical) :
    ∀ f ∈ fieldCodecs F, f.Makes 0 w (Change w f.number) := by
  have shallow : 0 < Wire.recursionLimit := by decide
  simp only [fieldCodecs, List.forall_mem_cons]
  refine ⟨?id, ?weight, ?sizes, ?stock, ?created, ?note, ?name, ?count, ?color, ?parts, ?featured, ?blob,
    ?serial, ?ratio, ?quota, ?displayName, by simp⟩
  case id => exact FieldCodec.makes_required (fun _ => ValueCodec.carries_string 0 w.id) .id
  case weight =>
    exact FieldCodec.makes_required (fun _ =>
      LongForm.carries_codec Word.lawful_signed lawful.signed 0 canonical.weight) .weight
  case sizes =>
    refine FieldCodec.makes_packed Wire.Read.confined_int32 (fun n _ => ValueCodec.carries_int32 0 n) ?_
    simp only [foldl_sizes]
    exact .sizes
  case stock =>
    refine FieldCodec.makes_repeated fun e member => ⟨StockEntry.carries_message shallow e, ?_⟩
    obtain ⟨entry, among, rfl⟩ := List.mem_map.1 member
    exact .stock among
  case created =>
    refine FieldCodec.makes_optional fun a there =>
      ⟨DateForm.carries_codec lawful.signed shallow (canonical.created a there), ?_⟩
    rw [← there]
    exact .created
  case note =>
    refine FieldCodec.makes_optional fun s there =>
      ⟨Wrapper.carries_valueCodec shallow String.isEmpty_iff.1 (ValueCodec.carries_string 1 s), ?_⟩
    rw [← there]
    exact .note
  case name =>
    refine FieldCodec.makes_optional fun s there => ⟨ValueCodec.carries_string 0 s, ?_⟩
    have only : F.label.count? w.label = none := by
      rcases canonical.label with absent | absent
      · exact absurd (there.symm.trans absent) (Option.some_ne_none _)
      · exact absent
    simp only [← lawful.label.eq_setName s w.label _ there only]
    exact .name
  case count =>
    refine FieldCodec.makes_optional fun n there => ⟨ValueCodec.carries_int32 0 n, ?_⟩
    have only : F.label.name? w.label = none := by
      rcases canonical.label with absent | absent
      · exact absent
      · exact absurd (there.symm.trans absent) (Option.some_ne_none _)
    simp only [← lawful.label.eq_setCount n w.label _ only there]
    exact .count
  case color =>
    exact FieldCodec.makes_required (fun _ => (ValueCodec.carries_int32 0 _).via rfl
      (by rw [lawful.color.ofNumber_toNumber])) .color
  case parts =>
    refine FieldCodec.makes_repeated fun p member => ⟨Part.carries_codec ?_, .part p⟩
    rw [Nat.zero_add]
    exact canonical.parts p member
  case featured =>
    refine FieldCodec.makes_optional fun b there => ⟨ValueCodec.carries_bool 0 b, ?_⟩
    rw [← there]
    exact .featured
  case blob => exact FieldCodec.makes_required (fun _ => ValueCodec.carries_bytes 0 w.blob) .blob
  case serial =>
    exact FieldCodec.makes_required (fun _ =>
      LongForm.carries_codec Word.lawful_unsigned lawful.unsigned 0 canonical.serial) .serial
  case ratio => exact FieldCodec.makes_required (fun _ => ValueCodec.carries_double 0 w.ratio) .ratio
  case quota =>
    refine FieldCodec.makes_optional fun a there => ?_
    have held := canonical.quota a there
    refine ⟨Wrapper.carries_valueCodec shallow (LongForm.eq_zero lawful.signed held)
      (LongForm.carries_codec Word.lawful_signed lawful.signed 1 held), ?_⟩
    rw [← there]
    exact .quota
  case displayName => exact FieldCodec.makes_required (fun _ => ValueCodec.carries_string 0 w.displayName) .displayName

/-- The records of an encoding are decoded in any order in which those of the parts stand as they were written. -/
theorem decode_reordered (S : OptionSet) {w : Widget S.form} (canonical : S.Canonical w)
    (exclusive : S.form.label.Exclusive w.label) (low : ∀ p ∈ w.parts, p.height ≤ 100) :
    ∃ b, (codec S.form).encode w = .ok b ∧
      (b.size < 4294967296 →
        (∃ records : List (List UInt8), (∀ record ∈ records, Wire.IsRecord record) ∧
          records.flatten = b.data.toList) ∧
        ∀ records order : List (List UInt8), (∀ record ∈ records, Wire.IsRecord record) →
          records.flatten = b.data.toList → order.Perm records →
          order.filter (fieldOf? · == some 10) = records.filter (fieldOf? · == some 10) →
            (codec S.form).decode ⟨order.flatten.toArray⟩ = .ok w.asRead) := by
  have whole := OptionSet.canonical_widget canonical exclusive low
  obtain ⟨records, write, reads⟩ := MessageCodec.reads_of_records (numbered S.form) (delivers S.lawful whole)
  refine ⟨_, MessageCodec.encode_of_records write, fun small => ?_⟩
  have short := MessageCodec.short_of_flatten (by simpa [ByteArray.size] using small)
  have complete := MessageCodec.isRecord_of_records (framed_fieldCodecs S.form) write short
  refine ⟨⟨records, complete, rfl⟩, fun records' order complete' same perm kept => ?_⟩
  -- An encoding has no other records than those that were written.
  obtain rfl := Wire.records_unique complete' complete same
  have makes := MessageCodec.makes_of_records (numbered S.form) (makes_fieldCodecs S.lawful whole) write short
  exact MessageCodec.decode_of_reads ((reads short).reordered makes
    (fun _ _ _ _ first second => first.comm second) perm kept)

def stocked : Widget Form.plain :=
  { base .plain with
    id := "w"
    stock := (Dict.empty.insert "a" 1).insert "b" 2
    parts := [⟨"a", none⟩, ⟨"b", none⟩]
    ratio := ⟨0x8000000000000000⟩ }

def stockedRecords : List (List UInt8) :=
  [[0x0a, 0x01, 0x77], [0x22, 0x05, 0x0a, 0x01, 0x61, 0x10, 0x01], [0x22, 0x05, 0x0a, 0x01, 0x62, 0x10, 0x02],
    [0x52, 0x03, 0x0a, 0x01, 0x61], [0x52, 0x03, 0x0a, 0x01, 0x62]]

set_option maxRecDepth 4000 in
theorem decode_reordered_stocked :
    (codec OptionSet.defaults.form).encode stocked = .ok ⟨stockedRecords.flatten.toArray⟩ ∧
      (codec OptionSet.defaults.form).decode
        ⟨#[0x22, 0x05, 0x0a, 0x01, 0x62, 0x10, 0x02, 0x52, 0x03, 0x0a, 0x01, 0x61, 0x22, 0x05, 0x0a, 0x01, 0x61,
          0x10, 0x01, 0x52, 0x03, 0x0a, 0x01, 0x62, 0x0a, 0x01, 0x77]⟩ = .ok { stocked with ratio := ⟨0⟩ } := by
  have low : ∀ p ∈ stocked.parts, p.height ≤ 100 := by decide
  have bytes : (codec OptionSet.defaults.form).encode stocked = .ok ⟨stockedRecords.flatten.toArray⟩ := by cbv
  have complete : ∀ record ∈ stockedRecords, Wire.IsRecord record := by
    simp only [stockedRecords, List.forall_mem_cons]
    refine ⟨?_, ?_, ?_, ?_, ?_, by simp⟩ <;> exact .delimited (by decide) rfl (by decide) rfl
  obtain ⟨b, encode, decode⟩ := decode_reordered .defaults (w := stocked) trivial (.inl rfl) low
  obtain rfl : b = ⟨stockedRecords.flatten.toArray⟩ := Except.ok.inj (encode.symm.trans bytes)
  obtain ⟨-, decoded⟩ := decode (by decide)
  exact ⟨bytes, decoded stockedRecords
    [[0x22, 0x05, 0x0a, 0x01, 0x62, 0x10, 0x02], [0x52, 0x03, 0x0a, 0x01, 0x61],
      [0x22, 0x05, 0x0a, 0x01, 0x61, 0x10, 0x01], [0x52, 0x03, 0x0a, 0x01, 0x62], [0x0a, 0x01, 0x77]]
    complete rfl (by decide) (by decide)⟩

end Widget

end Protogen.Shop
