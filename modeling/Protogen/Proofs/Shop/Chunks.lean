import Protogen.Proofs.Codec.Whole
import Protogen.Proofs.Shop.Unknown
import Protogen.Proofs.Shop.WireTypes

set_option autoImplicit false

namespace Protogen.Shop

open Wire (CompleteRecord Value Varint WireType recursionLimit)
open Wire.Read (Takes Pieces)
open WellKnown (Timestamp Wrapper)

namespace Widget

variable {F : Form}

/-- A complete record of a field other than the sizes, of its declared wire type and fit to be read, or of
a field that widgets do not have. -/
inductive OtherRecord (F : Form) : List UInt8 → Prop
  | unknown {field : Nat} {record : List UInt8} (complete : CompleteRecord recursionLimit field record)
      (unclaimed : field < 1 ∨ 16 < field) : OtherRecord F record
  | known {n : Nat} {front bytes : List UInt8} {w : Widget F} (number : Varint 0 front n)
      (value : Value recursionLimit (n % 4294967296) bytes)
      (claimed : 1 ≤ n % 4294967296 / 8 ∧ n % 4294967296 / 8 ≤ 16) (other : n % 4294967296 / 8 ≠ 3)
      (declared : Declared (n % 4294967296 / 8) (n % 4294967296 % 8))
      (accepted : (codec F).decode ⟨(front ++ bytes).toArray⟩ = .ok w) : OtherRecord F (front ++ bytes)

inductive Entry where
  | run (sizes : List Int32)
  | single (size : Int32)
  | other (record : List UInt8)

namespace Entry

def content (sizes : List Int32) : List UInt8 :=
  sizes.flatMap Wire.Bytes.int32

def bytes : Entry → List UInt8
  | run sizes => 0x1A :: Wire.Bytes.delimited (content sizes)
  | single size => 0x18 :: Wire.Bytes.int32 size
  | other record => record

def sizes : Entry → List Int32
  | run sizes => sizes
  | single size => [size]
  | other _ => []

-- Where no sizes are written only what is between them is there.
def rest : Entry → List UInt8
  | run _ => []
  | single _ => []
  | other record => record

/-- Runs have lengths of 32 bits, and what is between them is well formed. -/
def WellFormed (F : Form) : Entry → Prop
  | run sizes => (content sizes).length < 4294967296
  | single _ => True
  | other record => OtherRecord F record

end Entry

def withSizes (sizes : List Int32) (w : Widget F) : Widget F :=
  { w with sizes := sizes }

-- Such a change neither looks at the sizes nor touches them.
def Apart (change : Widget F → Widget F) : Prop :=
  ∀ sizes w, change (withSizes sizes w) = withSizes sizes (change w)

theorem parallel_apart {R : Widget F → Widget F → Prop}
    (kept : ∀ change, Apart change → ∀ v w, R v w → R (change v) (change w)) :
    ∀ f ∈ fieldCodecs F, f.number ≠ 3 → f.Parallel R := by
  simp only [fieldCodecs, List.forall_mem_cons]
  refine ⟨?_, ?_, ?sizes, ?_, ?_, ?_, ?_, ?_, ?_, ?_, ?_, ?_, ?_, ?_, ?_, ?_, by simp⟩
  case sizes => exact fun other => absurd rfl other
  all_goals exact fun _ => FieldCodec.parallel_of_set (fun _ _ => rfl) fun a => kept _ fun _ _ => rfl

theorem whole_other : ∀ f ∈ fieldCodecs F, f.number ≠ 3 → f.Whole (ownType f.number) := by
  have signed : (F.signed.codec Word.signed).Whole := ValueCodec.whole_int64.via _ _
  have unsigned : (F.unsigned.codec Word.unsigned).Whole := ValueCodec.whole_uint64.via _ _
  have wrapped {α : Type} {base : α} {isDefault : α → Bool} {c : ValueCodec α}
      (confined : Wire.Read.Confined 1 c.read) : (Wrapper.valueCodec (Wrapper.codec base isDefault c)).Whole :=
    (ValueCodec.whole_message (Wrapper.local_codec confined)).via _ _
  simp only [fieldCodecs, List.forall_mem_cons]
  refine ⟨?id, ?weight, ?sizes, ?stock, ?created, ?note, ?name, ?count, ?color, ?parts, ?featured, ?blob,
    ?serial, ?ratio, ?quota, ?displayName, by simp⟩
  case sizes => exact fun other => absurd rfl other
  all_goals intro _
  case id | name | displayName => exact FieldCodec.whole_of_set ValueCodec.whole_string fun _ _ => rfl
  case weight => exact FieldCodec.whole_of_set signed fun _ _ => rfl
  case stock => exact FieldCodec.whole_of_set (ValueCodec.whole_message StockEntry.local_codec) fun _ _ => rfl
  case created =>
    exact FieldCodec.whole_of_set ((ValueCodec.whole_message (Timestamp.local_codec _)).via _ _) fun _ _ => rfl
  case note => exact FieldCodec.whole_of_set (wrapped Wire.Read.confined_string) fun _ _ => rfl
  case count => exact FieldCodec.whole_of_set ValueCodec.whole_int32 fun _ _ => rfl
  case color => exact FieldCodec.whole_of_set (ValueCodec.whole_int32.via _ _) fun _ _ => rfl
  case parts => exact FieldCodec.whole_of_set (ValueCodec.whole_message (Part.local_codecTo _)) fun _ _ => rfl
  case featured => exact FieldCodec.whole_of_set ValueCodec.whole_bool fun _ _ => rfl
  case blob => exact FieldCodec.whole_of_set ValueCodec.whole_bytes fun _ _ => rfl
  case serial => exact FieldCodec.whole_of_set unsigned fun _ _ => rfl
  case ratio => exact FieldCodec.whole_of_set ValueCodec.whole_double fun _ _ => rfl
  case quota => exact FieldCodec.whole_of_set (wrapped (LongForm.confined_codec Word.lawful_signed)) fun _ _ => rfl

-- Such a record is read into every widget, and alike whatever its sizes are.
theorem OtherRecord.takes {record : List UInt8} (other : OtherRecord F record) (w : Widget F) :
    ∃ w', Takes ((codec F).readRecord w) 0 record w' ∧
      ∀ sizes, Takes ((codec F).readRecord (withSizes sizes w)) 0 record (withSizes sizes w') := by
  cases other with
  | unknown complete unclaimed =>
    have step := MessageCodec.takes_unknown complete (Nat.zero_add _).le (find?_unknown (F := F) unclaimed)
    exact ⟨w, step w, fun sizes => step (withSizes sizes w)⟩
  | @known n front bytes w₀ number value claimed other declared accepted =>
    obtain ⟨f, member, named⟩ := field_of_number (F := F) claimed.1 claimed.2
    have found := MessageCodec.find?_number (numbered F).distinct member
    rw [named] at found
    rw [← named] at other declared
    have type : n % 4294967296 % 8 = (ownType f.number).number := by
      rcases declared with own | ⟨three, -⟩
      · exact own
      · exact absurd three other
    obtain ⟨_, alone⟩ := MessageCodec.takes_of_decode (local_codec F) number value type found
      (whole_other f member other) accepted
    -- What is read into the widget that reading starts from is read into every other, and so with any sizes.
    have anywhere := parallel_apart (F := F) (R := fun _ _ => True) (fun _ _ _ _ _ => trivial) f member other
    obtain ⟨w', -, here⟩ := (anywhere _ _ w trivial).takes (local_codec F f member _ w) alone
    refine ⟨w', MessageCodec.takes_named number found here, fun sizes => ?_⟩
    have sized := parallel_apart (F := F) (R := fun v w => w = withSizes sizes v)
      (fun change apart v w same => same ▸ apart sizes v) f member other
    obtain ⟨_, rfl, there⟩ := (sized _ w _ rfl).takes (local_codec F f member _ _) here
    exact MessageCodec.takes_named number found there

theorem sizesField_mem (F : Form) : sizesField ∈ (codec F).fields := by
  simp [codec, fieldCodecs, sizesField]

theorem takes_single (size : Int32) (w : Widget F) :
    Takes ((codec F).readRecord w) 0 (0x18 :: Wire.Bytes.int32 size) (withSizes (w.sizes ++ [size]) w) := by
  refine MessageCodec.takes_readRecord (numbered F) (sizesField_mem F) ⟨.varint, Wire.Bytes.int32 size, ?_, ?_⟩
  next =>
    change _ = Wire.varintBytes (FieldCodec.tag 3 .varint) ++ _
    rw [Wire.varintBytes_small (by decide)]
    rfl
  next =>
    rw [sizesField, FieldCodec.packed_read_single (by rw [FieldCodec.tag_mod]; decide)]
    exact (Wire.Read.takes_int32 0 size).map _

theorem takes_run {sizes : List Int32} (short : (Entry.content sizes).length < 4294967296) (w : Widget F) :
    Takes ((codec F).readRecord w) 0 (0x1A :: Wire.Bytes.delimited (Entry.content sizes))
      (withSizes (w.sizes ++ sizes) w) := by
  have carries : ∀ a ∈ sizes, ValueCodec.int32.Carries 0 a a := fun a _ => ValueCodec.carries_int32 0 a
  obtain ⟨run, writes, pieces⟩ := FieldCodec.pieces_run
    (fun a (w : Widget F) => { w with sizes := w.sizes ++ [a] }) Wire.Read.confined_int32 carries
  have content : run.flatten = Entry.content sizes := by
    have written : sizes.mapM ValueCodec.int32.write = .ok (sizes.map Wire.Bytes.int32) := List.mapM_pure
    rw [← Except.ok.inj (written.symm.trans writes)]
    exact List.flatMap_def.symm
  rw [content] at pieces
  refine MessageCodec.takes_readRecord (numbered F) (sizesField_mem F)
    ⟨.delimited, Wire.Bytes.delimited (Entry.content sizes), ?_, ?_⟩
  next =>
    change _ = Wire.varintBytes (FieldCodec.tag 3 .delimited) ++ _
    rw [Wire.varintBytes_small (by decide)]
    rfl
  next =>
    rw [sizesField, FieldCodec.packed_read_run (FieldCodec.tag_mod _ .delimited)]
    have taken := (pieces short w).takes_within
    rw [foldl_sizes] at taken
    exact Wire.Read.takes_length_bind short (Nat.le_refl _) taken

theorem pieces_entry {entry : Entry} (formed : entry.WellFormed F) (sizes : List Int32) (w : Widget F) :
    ∃ w', Pieces (codec F).readRecord 0 entry.rest.length w entry.rest w' ∧
      Pieces (codec F).readRecord 0 entry.bytes.length (withSizes sizes w) entry.bytes
        (withSizes (sizes ++ entry.sizes) w') := by
  cases entry with
  | run added =>
    have takes := takes_run formed (withSizes sizes w)
    exact ⟨w, .done w, .single (Nat.succ_pos _) takes⟩
  | single size =>
    have takes := takes_single size (withSizes sizes w)
    exact ⟨w, .done w, .single (Nat.succ_pos _) takes⟩
  | other record =>
    obtain ⟨w', without, beside⟩ := OtherRecord.takes formed w
    have nonempty := (without.of_ensures (MessageCodec.confined_readRecord (local_codec F) w 0)).1
    rw [Entry.sizes, List.append_nil]
    exact ⟨w', .single nonempty without, .single nonempty (beside sizes)⟩

theorem pieces_entries {entries : List Entry} (formed : ∀ entry ∈ entries, entry.WellFormed F)
    (sizes : List Int32) (w : Widget F) :
    ∃ w', Pieces (codec F).readRecord 0 (entries.flatMap Entry.rest).length w (entries.flatMap Entry.rest) w' ∧
      Pieces (codec F).readRecord 0 (entries.flatMap Entry.bytes).length (withSizes sizes w)
        (entries.flatMap Entry.bytes) (withSizes (sizes ++ entries.flatMap Entry.sizes) w') := by
  induction entries generalizing sizes w with
  | nil =>
    rw [List.flatMap_nil, List.flatMap_nil, List.flatMap_nil, List.append_nil]
    exact ⟨w, .done w, .done _⟩
  | cons entry entries ih =>
    obtain ⟨w₁, without, beside⟩ := pieces_entry (formed entry (List.mem_cons_self ..)) sizes w
    obtain ⟨w', without', beside'⟩ :=
      ih (fun other member => formed other (List.mem_cons_of_mem _ member)) (sizes ++ entry.sizes) w₁
    simp only [List.flatMap_cons, List.length_append]
    rw [← List.append_assoc]
    exact ⟨w', without.append rfl without', beside.append rfl beside'⟩

/-- The sizes of all chunks come one after the other, and every other member is as it is where no chunk is
written. -/
theorem decode_chunks (S : OptionSet) {entries : List Entry} (formed : ∀ entry ∈ entries, entry.WellFormed S.form) :
    ∃ w, (codec S.form).decode ⟨(entries.flatMap Entry.rest).toArray⟩ = .ok w ∧
      (codec S.form).decode ⟨(entries.flatMap Entry.bytes).toArray⟩ =
        .ok { w with sizes := entries.flatMap Entry.sizes } := by
  obtain ⟨w, without, beside⟩ := pieces_entries formed [] (base S.form)
  exact ⟨w, MessageCodec.decode_of_pieces without, MessageCodec.decode_of_pieces beside⟩

def mixed : List Entry :=
  [.run [-1, 2], .other [0x0A, 0x01, 0x77], .single (-5), .run [], .other group, .single 7]

set_option maxRecDepth 4000 in
theorem formed_mixed : ∀ entry ∈ mixed, entry.WellFormed OptionSet.strings.form := by
  have tag : Varint 0 [0x0A] 10 := .last (by decide) (by decide) (by decide)
  have length : Varint 0 [0x01] 1 := .last (by decide) (by decide) (by decide)
  have value : Value recursionLimit (10 % 4294967296) ([0x01] ++ [0x77]) := .delimited rfl length rfl
  have accepted : (codec OptionSet.strings.form).decode ⟨#[0x0A, 0x01, 0x77]⟩ = .ok { base .texts with id := "w" } := by
    cbv
  have length' : (Entry.content [-1, 2]).length = 11 := by cbv
  have short : (Entry.content [-1, 2]).length < 4294967296 := by omega
  have empty : (Entry.content []).length < 4294967296 := by decide
  simp only [mixed, List.forall_mem_cons]
  exact ⟨short, .known tag value (by decide) (by decide) (by decide) accepted, trivial, empty,
    .unknown record_group (.inr (by decide)), trivial, by simp⟩

set_option maxRecDepth 4000 in
theorem decode_chunks_mixed :
    (codec OptionSet.strings.form).decode ⟨(mixed.flatMap Entry.bytes).toArray⟩ =
      .ok { base .texts with id := "w", sizes := [-1, 2, -5, 7] } := by
  have rest : (codec OptionSet.strings.form).decode ⟨(mixed.flatMap Entry.rest).toArray⟩ =
      .ok { base .texts with id := "w" } := by cbv
  obtain ⟨w, without, beside⟩ := decode_chunks .strings formed_mixed
  obtain rfl := Except.ok.inj (rest.symm.trans without)
  exact beside

end Widget

end Protogen.Shop
