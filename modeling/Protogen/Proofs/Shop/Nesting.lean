import Protogen.Proofs.Codec.Nesting
import Protogen.Proofs.Codec.Parallel
import Protogen.Proofs.Shop.Unknown

set_option autoImplicit false

namespace Protogen.Shop

open Wire (varintBytes recursionLimit)
open Wire.Read (Takes Fails Pieces)
open FieldCodec (tag)

namespace Part

variable {depth k : Nat} {fields : List Nat}

-- A part has one child or none, so its parts are a chain.
@[elab_as_elim]
theorem chain {motive : Part → Prop} (last : ∀ sku, motive ⟨sku, none⟩)
    (more : ∀ sku c, motive c → motive ⟨sku, some c⟩) : ∀ p, motive p
  | ⟨sku, none⟩ => last sku
  | ⟨sku, some c⟩ => more sku c (chain last more c)

def bytesWith (unknown : List UInt8) : Part → List UInt8
  | ⟨sku, none⟩ => skuBytes sku ++ unknown
  | ⟨sku, some c⟩ => skuBytes sku ++ FieldCodec.delimitedRecord 2 (c.bytesWith unknown)

theorem bytesWith_nil (p : Part) : p.bytesWith [] = p.bytes := by
  induction p using chain with
  | last sku => rw [bytesWith, bytes_eq, childBytes]
  | more sku c ih => rw [bytesWith, bytes_eq, ih, childBytes, FieldCodec.delimitedRecord]

theorem find?_unclaimed {field : Nat} (unknown : field ≠ 1 ∧ field ≠ 2) :
    (codecTo k).fields.find? (·.number == field) = none := by
  obtain ⟨sku, child⟩ := unknown
  rw [fields_codecTo]
  simp [FieldCodec.required, FieldCodec.optional, Ne.symm sku, Ne.symm child]

theorem pieces_sku {sku : String} (short : (skuBytes sku).length < 4294967296) :
    Pieces (codecTo k).readRecord depth (skuBytes sku).length (codecTo k).base (skuBytes sku) ⟨sku, none⟩ := by
  have bytes : bytes ⟨sku, none⟩ = skuBytes sku := by rw [bytes_eq, childBytes, List.append_nil]
  have pieces : Pieces (codecTo k).readRecord depth (Part.bytes ⟨sku, none⟩).length base (Part.bytes ⟨sku, none⟩)
      ⟨sku, none⟩ := pieces_of_child (fun _ child => by cases child) (by rwa [bytes])
  rwa [bytes, ← base_codecTo k] at pieces

def childField (k : Nat) : FieldCodec Part :=
  .optional 2 (childCodec k) (·.child) fun a p => { p with child := some a }

theorem childField_mem (k : Nat) : childField k ∈ (codecTo k).fields := by
  rw [fields_codecTo]
  exact List.mem_cons_of_mem _ (List.mem_cons_self ..)

section Unknown

variable (named : ∀ n ∈ fields, n < 536870912) (unknown : ∀ field ∈ fields.head?, field ≠ 1 ∧ field ≠ 2)
include named unknown

theorem pieces_bytesWith {p : Part} (low : p.height ≤ k + 1)
    (shallow : depth + p.height + fields.length ≤ recursionLimit + 1)
    (short : (p.bytesWith (nestedGroups fields)).length < 4294967296) :
    Pieces (codecTo k).readRecord depth (p.bytesWith (nestedGroups fields)).length (codecTo k).base
      (p.bytesWith (nestedGroups fields)) p := by
  -- Each part of the chain is read one level deeper than the one that it is in.
  induction p using chain generalizing depth k with
  | last sku =>
    rw [bytesWith, List.length_append] at short ⊢
    rw [height] at shallow
    exact (pieces_sku (by omega)).append rfl (MessageCodec.pieces_nestedGroups named (by omega)
      (fun field head => find?_unclaimed (unknown field head)) _)
  | more sku c ih =>
    rw [bytesWith, List.length_append] at short ⊢
    rw [height] at low shallow
    have positive := height_pos c
    have content := FieldCodec.length_delimitedRecord_gt 2 (c.bytesWith (nestedGroups fields))
    obtain ⟨k, rfl⟩ : ∃ j, k = j + 1 := ⟨k - 1, by omega⟩
    have inner : Pieces (codecTo k).readRecord (depth + 1) (c.bytesWith (nestedGroups fields)).length
        (codecTo k).base (c.bytesWith (nestedGroups fields)) c := ih (by omega) (by omega) (by omega)
    have child : Takes (childCodec (k + 1)).read depth _ c :=
      MessageCodec.takes_message (by omega) (by omega) inner
    have record := MessageCodec.takes_readRecord (m := ⟨sku, none⟩) (numbered (k + 1)) (childField_mem (k + 1))
      ⟨.delimited, _, rfl, child.map _⟩
    exact (pieces_sku (by omega)).append rfl (.single (by omega) record)

-- Where parts and groups together are more than the levels that are left, the first past the limit is refused, and
-- with it all that it is in.
theorem fails_bytesWith {p : Part} (levels : depth + k = recursionLimit)
    (past : recursionLimit < depth + p.height + fields.length)
    (short : (p.bytesWith (nestedGroups fields)).length < 4294967296) :
    Fails (ValueCodec.message (codecTo k)).read depth (Wire.Bytes.delimited (p.bytesWith (nestedGroups fields)))
      (.recursionLimit recursionLimit) := by
  -- At the limit a part is not opened; before it, what fails is the child or, in the innermost, the first group.
  induction p using chain generalizing depth k with
  | last sku =>
    rcases Nat.eq_zero_or_pos k with none | some
    next => exact MessageCodec.fails_message_deep (by omega) short
    next =>
      rw [height] at past
      rw [bytesWith] at short ⊢
      cases fields with
      | nil =>
        rw [List.length_nil] at past
        omega
      | cons field fields =>
        have nonempty := length_nestedGroups_ge (field :: fields)
        rw [List.length_cons] at nonempty past
        have sku' : (skuBytes sku).length < 4294967296 := by
          rw [List.length_append] at short
          omega
        exact MessageCodec.fails_message (by omega) short (pieces_sku sku') (by omega)
          (MessageCodec.fails_nestedGroups named (by omega) (by rw [List.length_cons]; omega)
            (find?_unclaimed (unknown field rfl)))
  | more sku c ih =>
    rcases Nat.eq_zero_or_pos k with none | some
    next => exact MessageCodec.fails_message_deep (by omega) short
    next =>
      rw [height] at past
      rw [bytesWith] at short ⊢
      have content := FieldCodec.length_delimitedRecord_gt 2 (c.bytesWith (nestedGroups fields))
      have long := short
      rw [List.length_append] at long
      obtain ⟨k, rfl⟩ : ∃ j, k = j + 1 := ⟨k - 1, by omega⟩
      have child : Fails (ValueCodec.message (codecTo k)).read (depth + 1)
          (Wire.Bytes.delimited (c.bytesWith (nestedGroups fields))) (.recursionLimit recursionLimit) :=
        ih (by omega) (by omega) (by omega)
      exact MessageCodec.fails_message (by omega) short (pieces_sku (by omega)) (by omega)
        (MessageCodec.fails_readRecord (numbered (k + 1)) (childField_mem (k + 1)) (child.bind _))

end Unknown

end Part

namespace Widget

variable {F : Form} {fields : List Nat}

def partRecord (p : Part) (fields : List Nat) : List UInt8 :=
  FieldCodec.delimitedRecord 10 (p.bytesWith (nestedGroups fields))

theorem length_partRecord_pos (p : Part) (fields : List Nat) : 0 < (partRecord p fields).length :=
  Nat.zero_lt_of_lt (FieldCodec.length_delimitedRecord_gt 10 _)

theorem partsField_mem (F : Form) : partsField ∈ (codec F).fields := by
  simp [codec, fieldCodecs, partsField]

section Unknown

variable (named : ∀ n ∈ fields, n < 536870912) (unknown : ∀ field ∈ fields.head?, field ≠ 1 ∧ field ≠ 2)
include named unknown

theorem takes_partRecord {p : Part} (low : p.height + fields.length ≤ recursionLimit)
    (short : (partRecord p fields).length < 4294967296) (w : Widget F) :
    Takes ((codec F).readRecord w) 0 (partRecord p fields) { w with parts := w.parts ++ [p] } := by
  have content : (p.bytesWith (nestedGroups fields)).length < (partRecord p fields).length :=
    FieldCodec.length_delimitedRecord_gt 10 _
  have pieces : Pieces Part.codec.readRecord (0 + 1) (p.bytesWith (nestedGroups fields)).length Part.codec.base
      (p.bytesWith (nestedGroups fields)) p :=
    Part.pieces_bytesWith named unknown (by omega) (by omega) (by omega)
  have value : Takes (ValueCodec.message Part.codec).read 0
      (Wire.Bytes.delimited (p.bytesWith (nestedGroups fields))) p :=
    MessageCodec.takes_message (by decide) (by omega) pieces
  exact MessageCodec.takes_readRecord (numbered F) (partsField_mem F) ⟨.delimited, _, rfl, value.map _⟩

theorem fails_partRecord {p : Part} (past : recursionLimit < p.height + fields.length)
    (short : (partRecord p fields).length < 4294967296) (w : Widget F) :
    Fails ((codec F).readRecord w) 0 (partRecord p fields) (.recursionLimit recursionLimit) := by
  have content : (p.bytesWith (nestedGroups fields)).length < (partRecord p fields).length :=
    FieldCodec.length_delimitedRecord_gt 10 _
  have fails := Part.fails_bytesWith (p := p) named unknown (Nat.zero_add recursionLimit) (by omega) (by omega)
  exact MessageCodec.fails_readRecord (numbered F) (partsField_mem F) (fails.bind _)

end Unknown

theorem records_part (w : Widget F) (p : Part) :
    partsField.records { w with parts := [p] } = .ok [partRecord p []] := by
  rw [partRecord, FieldCodec.delimitedRecord, nestedGroups, Part.bytesWith_nil]
  simp only [partsField, FieldCodec.repeated, FieldCodec.record, ValueCodec.message, Part.codec, Part.write_codecTo,
    List.mapM_cons, List.mapM_nil]
  rfl

-- A widget without parts is written in two pieces, and with a part it is these with the part between them.
theorem encode_split (S : OptionSet) {w : Widget S.form} (canonical : S.Canonical w)
    (exclusive : S.form.label.Exclusive w.label) (bare : w.parts = []) :
    ∃ a b, (codec S.form).encode w = .ok (a ++ b) ∧
      (∀ p, (codec S.form).encode { w with parts := [p] } = .ok (a ++ ⟨(partRecord p []).toArray⟩ ++ b)) ∧
      ((a ++ b).size < 4294967296 → ∃ x, (codec S.form).decode a = .ok x) := by
  have low : ∀ p ∈ w.parts, p.height ≤ 100 := by simp [bare]
  have split : (codec S.form).fields =
      (fieldCodecs S.form).take 9 ++ partsField :: (fieldCodecs S.form).drop 10 := rfl
  have members {f : FieldCodec (Widget S.form)} (member : f ∈ (fieldCodecs S.form).take 9 ++
      partsField :: (fieldCodecs S.form).drop 10) : f ∈ (codec S.form).fields := by rwa [split]
  have delivers := delivers S.lawful (OptionSet.canonical_widget canonical exclusive low)
  obtain ⟨x, early, rest⟩ := MessageCodec.Delivers.of_append (show MessageCodec.Delivers 0 w
    ((fieldCodecs S.form).take 9 ++ partsField :: (fieldCodecs S.form).drop 10) _ _ from delivers)
  cases rest with
  | cons _ late =>
    obtain ⟨fronts, writes, pieces⟩ := MessageCodec.pieces_of_delivers (numbered S.form)
      (fun f member => members (List.mem_append_left _ member)) early
    obtain ⟨backs, writes', -⟩ := MessageCodec.pieces_of_delivers (numbered S.form)
      (fun f member => members (List.mem_append_right _ (List.mem_cons_of_mem _ member))) late
    refine ⟨⟨fronts.flatten.flatten.toArray⟩, ⟨backs.flatten.flatten.toArray⟩, ?_, fun p => ?_, fun short => ⟨x, ?_⟩⟩
    next =>
      have none : partsField.records w = .ok [] := by
        simp only [partsField, FieldCodec.repeated, bare]
        rfl
      rw [MessageCodec.encode_of_split split writes none writes']
      congr 1
      apply ByteArray.ext
      simp
    next =>
      -- No other field looks at the parts, so the others are written as they are without it.
      rw [MessageCodec.encode_of_split (w := { w with parts := [p] }) split writes (records_part w p) writes']
      congr 1
      apply ByteArray.ext
      simp
    next =>
      rw [ByteArray.size_append] at short
      simp only [ByteArray.size, List.size_toArray] at short
      exact MessageCodec.decode_of_pieces (pieces (MessageCodec.short_of_flatten (by omega)))

def Inserted (front : List Part) (p : Part) (w w' : Widget F) : Prop :=
  ∃ back, w.parts = front ++ back ∧ w' = { w with parts := front ++ p :: back }

theorem parallel_inserted (F : Form) (front : List Part) (p : Part) : (codec F).Parallel (Inserted front p) := by
  simp only [MessageCodec.Parallel, codec, fieldCodecs, List.forall_mem_cons]
  refine ⟨?_, ?_, ?sizes, ?_, ?_, ?_, ?_, ?_, ?_, ?parts, ?_, ?_, ?_, ?_, ?_, ?_, by simp⟩
  case sizes =>
    refine FieldCodec.parallel_packed ?_
    rintro a w _ ⟨back, split, rfl⟩
    exact ⟨back, split, rfl⟩
  case parts =>
    refine FieldCodec.parallel_of_set (fun _ _ => rfl) ?_
    rintro a w _ ⟨back, split, rfl⟩
    refine ⟨back ++ [a], ?_, ?_⟩
    · rw [split, List.append_assoc]
    · simp
  -- No other field looks at the parts.
  all_goals
    refine FieldCodec.parallel_of_set (fun _ _ => rfl) ?_
    rintro a w _ ⟨back, split, rfl⟩
    exact ⟨back, split, rfl⟩

theorem parts_prefix {a b : ByteArray} {x y : Widget F} (front : (codec F).decode a = .ok x)
    (whole : (codec F).decode (a ++ b) = .ok y) : ∃ back, y.parts = x.parts ++ back := by
  rw [MessageCodec.decode_append (local_codec F) (placeless F) front] at whole
  obtain ⟨-, ⟨back, split, -⟩, -⟩ := MessageCodec.resume_parallel (parallel_inserted F x.parts ⟨"", none⟩)
    ⟨[], (List.append_nil _).symm, rfl⟩ whole
  exact ⟨back, split⟩

-- Wherever the part stands among the records of a widget, the widget is read with it if parts and groups together
-- are no more than the limit, and refused otherwise.
theorem decode_partRecord {a b : ByteArray} {x y : Widget F} (front : (codec F).decode a = .ok x)
    (whole : (codec F).decode (a ++ b) = .ok y) (p : Part) (named : ∀ n ∈ fields, n < 536870912)
    (unknown : ∀ field ∈ fields.head?, field ≠ 1 ∧ field ≠ 2) (short : (partRecord p fields).length < 4294967296) :
    (codec F).decode (a ++ ⟨(partRecord p fields).toArray⟩ ++ b) =
      if p.height + fields.length ≤ 100 then
        .ok { y with parts := x.parts ++ p :: y.parts.drop x.parts.length }
      else .error (.recursionLimit 100) := by
  split
  next low =>
    have takes := takes_partRecord named unknown low short x
    have pieces := Pieces.single (length_partRecord_pos p fields) takes
    have related : Inserted x.parts p x { x with parts := x.parts ++ [p] } := ⟨[], (List.append_nil _).symm, rfl⟩
    rw [MessageCodec.decode_append (local_codec F) (placeless F) front] at whole
    -- What stands behind is read into the widget with the part as it is read into the one without.
    obtain ⟨y', ⟨back, split, rfl⟩, rest⟩ :=
      MessageCodec.resume_parallel (parallel_inserted F x.parts p) related whole
    rw [ByteArray.append_assoc, MessageCodec.decode_append (local_codec F) (placeless F) front,
      ByteArray.data_append, Array.toList_append]
    rw [MessageCodec.resume_append (local_codec F) (placeless F) pieces, rest, split, List.drop_left]
  next high =>
    have fails := fails_partRecord named unknown (by rw [recursionLimit]; omega) short x
    have pieces := MessageCodec.pieces_of_decode (local_codec F) front
    have size : a.size = a.data.toList.length := by simp
    rw [size] at pieces
    have bytes : a ++ ⟨(partRecord p fields).toArray⟩ ++ b =
        ⟨(a.data.toList ++ partRecord p fields ++ b.data.toList).toArray⟩ := by
      apply ByteArray.ext
      simp
    rw [bytes]
    exact MessageCodec.decode_of_fails pieces (length_partRecord_pos p fields) fails

/-- A widget that is written with one part, and with groups added to the innermost of its parts or none, is read
back if parts and groups together are no more than the limit, and refused otherwise. The same holds of the
part at any place among records that are accepted without it. -/
theorem decode_chain (S : OptionSet) (p : Part) {fields : List Nat} (named : ∀ n ∈ fields, n < 536870912)
    (unknown : ∀ field ∈ fields.head?, field ≠ 1 ∧ field ≠ 2) :
    (∀ w : Widget S.form, S.Canonical w → S.form.label.Exclusive w.label → w.parts = [p] →
      ∃ a b, (codec S.form).encode w = .ok (a ++ ⟨(partRecord p []).toArray⟩ ++ b) ∧
        ((a ++ ⟨(partRecord p fields).toArray⟩ ++ b).size < 4294967296 →
          (codec S.form).decode (a ++ ⟨(partRecord p fields).toArray⟩ ++ b) =
            if p.height + fields.length ≤ 100 then .ok w.asRead else .error (.recursionLimit 100))) ∧
    ∀ (a b : ByteArray) (x y : Widget S.form), (codec S.form).decode a = .ok x →
      (codec S.form).decode (a ++ b) = .ok y → (partRecord p fields).length < 4294967296 →
        (codec S.form).decode (a ++ ⟨(partRecord p fields).toArray⟩ ++ b) =
          if p.height + fields.length ≤ 100 then
            .ok { y with parts := x.parts ++ p :: y.parts.drop x.parts.length }
          else .error (.recursionLimit 100) := by
  constructor
  next =>
    intro w canonical exclusive one
    have canonical' : S.Canonical { w with parts := [] } := by cases S <;> exact canonical
    obtain ⟨a, b, bare, encode, accepted⟩ := encode_split S canonical' exclusive rfl
    have same : { w with parts := [p] } = w := by rw [← one]
    obtain ⟨c, encode', decode⟩ := round_trip S canonical' exclusive (by simp)
    obtain rfl : a ++ b = c := Except.ok.inj (bare.symm.trans encode')
    refine ⟨a, b, by rw [← encode p, same], fun short => ?_⟩
    rw [ByteArray.size_append, ByteArray.size_append] at short
    have small : (a ++ b).size < 4294967296 := by
      rw [ByteArray.size_append]
      omega
    have record : (partRecord p fields).length < 4294967296 := by
      have size : (⟨(partRecord p fields).toArray⟩ : ByteArray).size = (partRecord p fields).length := rfl
      omega
    obtain ⟨x, front⟩ := accepted small
    obtain ⟨back, split⟩ := parts_prefix front (decode small)
    have nothing : x.parts = [] := (List.append_eq_nil_iff.1 split.symm).1
    have read : { asRead { w with parts := [] } with parts := [p] } = w.asRead := by
      rw [asRead, asRead, one]
    rw [decode_partRecord front (decode small) p named unknown record, nothing, ← read]
    rfl
  next => exact fun a b x y front whole short => decode_partRecord front whole p named unknown short

def inner : Part := ⟨"a", some ⟨"b", none⟩⟩

def holder : Widget Form.bigs :=
  { base .bigs with sizes := [7], label := some (.count 5), parts := [inner] }

set_option maxRecDepth 4000 in
-- Two parts leave room for 98 groups, and not for 99, between a count and a size.
theorem decode_chain_inner :
    (∃ a b, (codec OptionSet.bigints.form).encode holder = .ok (a ++ ⟨(partRecord inner []).toArray⟩ ++ b) ∧
      ((a ++ ⟨(partRecord inner (List.replicate 98 3)).toArray⟩ ++ b).size < 4294967296 →
        (codec OptionSet.bigints.form).decode (a ++ ⟨(partRecord inner (List.replicate 98 3)).toArray⟩ ++ b) =
          .ok holder.asRead)) ∧
    (codec OptionSet.bigints.form).decode (⟨#[0x40, 0x05]⟩ ++ ⟨(partRecord inner (List.replicate 98 3)).toArray⟩ ++
      ⟨#[0x18, 0x07]⟩) = .ok holder ∧
    (codec OptionSet.bigints.form).decode (⟨#[0x40, 0x05]⟩ ++ ⟨(partRecord inner (List.replicate 99 3)).toArray⟩ ++
      ⟨#[0x18, 0x07]⟩) = .error (.recursionLimit 100) := by
  have front : (codec OptionSet.bigints.form).decode ⟨#[0x40, 0x05]⟩ =
      .ok { base .bigs with label := some (.count 5) } := by cbv
  have whole : (codec OptionSet.bigints.form).decode (⟨#[0x40, 0x05]⟩ ++ ⟨#[0x18, 0x07]⟩) =
      .ok { holder with parts := [] } := by cbv
  have named (g : Nat) : ∀ n ∈ List.replicate g 3, n < 536870912 := by
    intro n member
    rw [List.eq_of_mem_replicate member]
    decide
  have unknown (g : Nat) : ∀ field ∈ (List.replicate g 3).head?, field ≠ 1 ∧ field ≠ 2 := by
    intro field head
    rw [List.eq_of_mem_replicate (List.mem_of_mem_head? head)]
    decide
  have length : (partRecord inner (List.replicate 98 3)).length = 208 := by cbv
  have length' : (partRecord inner (List.replicate 99 3)).length = 210 := by cbv
  have canonical : OptionSet.bigints.Canonical holder := by
    refine ⟨by decide, by decide, ?_, ?_⟩ <;> rintro _ ⟨⟩
  obtain ⟨written, placed⟩ := decode_chain .bigints inner (named 98) (unknown 98)
  have refused := (decode_chain .bigints inner (named 99) (unknown 99)).2 _ _ _ _ front whole (by omega)
  refine ⟨?_, (placed _ _ _ _ front whole (by omega)).trans (if_pos (by decide)), refused.trans (if_neg (by decide))⟩
  obtain ⟨a, b, encode, decode⟩ := written holder canonical (.inl rfl) rfl
  exact ⟨a, b, encode, fun short => (decode short).trans (if_pos (by decide))⟩

end Widget

end Protogen.Shop
