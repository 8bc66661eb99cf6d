import Protogen.Proofs.Shop.Form
import Protogen.Proofs.Shop.Widget

set_option autoImplicit false

namespace Protogen.Shop.Widget

open Wire.Read (Ensures Confined)
open WellKnown (DateForm Wrapper)

variable {F : Form}

def runLength (sizes : List Int32) : Nat :=
  (sizes.map fun i => (Wire.Bytes.int32 i).length).sum

-- What holds of a widget that stands for the first `n` bytes, and is open at a depth.
structure Readable (depth n : Nat) (w : Widget F) : Prop where
  id : w.id.utf8ByteSize ≤ n
  weight : F.signed.Canonical w.weight
  sizes : runLength w.sizes ≤ 2 * n
  stock : ∀ e ∈ w.stock.entries, e.1.utf8ByteSize ≤ n
  created : ∀ a, w.created = some a → F.date.Canonical a
  note : ∀ s, w.note = some s → s.utf8ByteSize ≤ n
  label : F.label.Exclusive w.label
  name : ∀ s, F.label.name? w.label = some s → s.utf8ByteSize ≤ n
  low : ∀ p ∈ w.parts, depth + p.height ≤ 100
  compact : ∀ p ∈ w.parts, p.Compact n
  blob : w.blob.size ≤ n
  serial : F.unsigned.Canonical w.serial
  quota : ∀ a, w.quota = some a → F.signed.Canonical a
  displayName : w.displayName.utf8ByteSize ≤ n

namespace Readable

variable {depth n n' : Nat} {w : Widget F}

theorem canonical (held : Readable depth n w) : w.Canonical where
  weight := held.weight
  created := held.created
  label := held.label
  parts p member := Nat.le_trans (Nat.le_add_left ..) (held.low p member)
  serial := held.serial
  quota := held.quota

theorem base (lawful : F.Lawful) : Readable depth 0 (Widget.base F) where
  id := Nat.le_refl 0
  weight := lawful.signed.canonical_zero
  sizes := Nat.le_refl 0
  stock := nofun
  created := nofun
  note := nofun
  label := .inl lawful.label.name?_none
  name s present := by
    rw [Widget.base, lawful.label.name?_none] at present
    cases present
  low := nofun
  compact := nofun
  blob := Nat.le_refl 0
  serial := lawful.unsigned.canonical_zero
  quota := nofun
  displayName := Nat.le_refl 0

theorem more (fewer : n ≤ n') (held : Readable depth n w) : Readable depth n' w where
  id := Nat.le_trans held.id fewer
  weight := held.weight
  sizes := Nat.le_trans held.sizes (Nat.mul_le_mul_left 2 fewer)
  stock e member := Nat.le_trans (held.stock e member) fewer
  created := held.created
  note s present := Nat.le_trans (held.note s present) fewer
  label := held.label
  name s present := Nat.le_trans (held.name s present) fewer
  low := held.low
  compact p member few := Nat.le_trans (held.compact p member (by omega)) (by omega)
  blob := Nat.le_trans held.blob fewer
  serial := held.serial
  quota := held.quota
  displayName := Nat.le_trans held.displayName fewer

theorem later (held : Readable depth n w) (taken : Nat) : Readable depth (n + 1 + taken) w :=
  held.more (by omega)

end Readable

theorem runLength_snoc (sizes : List Int32) (i : Int32) :
    runLength (sizes ++ [i]) = runLength sizes + (Wire.Bytes.int32 i).length := by
  simp [runLength]

theorem ensures_sizes {depth n : Nat} {w : Widget F} (held : Readable depth n w) (tag : Nat) :
    Ensures (sizesField.read tag w) depth fun bytes w' => Readable depth (n + bytes.length) w' := by
  refine FieldCodec.ensures_packed (c := .int32) (Readable depth) Wire.Read.confined_int32 Readable.more
    (fun n w held => ?_) held tag
  refine (Wire.Read.ensures_int32 depth).weaken fun bytes i short => ?_
  refine { held.more (Nat.le_add_right n bytes.length) with sizes := ?_ }
  have := held.sizes
  rw [runLength_snoc]
  omega

theorem keeps_readable {depth : Nat} (lawful : F.Lawful) : (codec F).Keeps depth (Readable depth) where
  more := Readable.more
  field := by
    simp only [codec, fieldCodecs, List.forall_mem_cons]
    refine ⟨?id, ?weight, ?sizes, ?stock, ?created, ?note, ?name, ?count, ?color, ?parts, ?featured, ?blob,
      ?serial, ?ratio, ?quota, ?displayName, by simp⟩ <;> intro tag n w held
    -- Each record takes a byte for its tag besides those of its value.
    case id =>
      refine (Wire.Read.ensures_string depth).map _ ?_
      rintro bytes s ⟨-, long⟩
      exact { held.later bytes.length with id := by dsimp only; omega }
    case weight =>
      refine (LongForm.ensures_codec Word.lawful_signed depth).map _ fun bytes a canonical => ?_
      exact { held.later bytes.length with weight := canonical }
    case sizes => exact (ensures_sizes held tag).weaken fun bytes w held => held.more (by omega)
    case stock =>
      refine (StockEntry.ensures_message depth).map _ fun bytes e short => ?_
      refine { held.later bytes.length with stock := fun e' member => ?_ }
      rcases mem_insertKey member with rfl | member
      · dsimp only
        omega
      · exact (held.later bytes.length).stock e' member
    case created =>
      refine (DateForm.ensures_codec lawful.signed lawful.date depth).map _ fun bytes a canonical => ?_
      refine { held.later bytes.length with created := ?_ }
      rintro _ ⟨⟩
      exact canonical
    case note =>
      refine (Wrapper.ensures_string depth).map _ fun bytes s short => ?_
      refine { held.later bytes.length with note := ?_ }
      rintro _ ⟨⟩
      omega
    case name =>
      refine (Wire.Read.ensures_string depth).map _ ?_
      rintro bytes s ⟨-, long⟩
      refine { held.later bytes.length with label := .inr (lawful.label.count?_setName s w.label), name := ?_ }
      intro s' present
      rw [lawful.label.name?_setName] at present
      cases present
      omega
    case count =>
      refine (Wire.Read.confined_int32 depth).map _ fun bytes i _ => ?_
      refine { held.later bytes.length with label := .inl (lawful.label.name?_setCount i w.label), name := ?_ }
      intro s' present
      rw [lawful.label.name?_setCount] at present
      cases present
    case color =>
      refine (ValueCodec.confined_via _ _ Wire.Read.confined_int32 depth).map _ fun bytes a _ => ?_
      exact { held.later bytes.length with }
    case parts =>
      refine (Part.ensures_codecTo Wire.recursionLimit depth).map _ ?_
      rintro bytes p ⟨low, m, long, compact⟩
      refine { held.later bytes.length with low := fun p' member => ?_, compact := fun p' member => ?_ }
      · rcases List.mem_append.1 member with member | member
        · exact held.low p' member
        · cases List.mem_singleton.1 member
          omega
      · rcases List.mem_append.1 member with member | member
        · exact (held.later bytes.length).compact p' member
        · cases List.mem_singleton.1 member
          intro few
          have := compact (by omega)
          omega
    case featured =>
      exact (Wire.Read.confined_bool depth).map _ fun bytes a _ => { held.later bytes.length with }
    case blob =>
      refine (Wire.Read.ensures_bytes depth).map _ ?_
      rintro bytes b ⟨-, long⟩
      exact { held.later bytes.length with blob := by dsimp only; omega }
    case serial =>
      refine (LongForm.ensures_codec Word.lawful_unsigned depth).map _ fun bytes a canonical => ?_
      exact { held.later bytes.length with serial := canonical }
    case ratio =>
      exact (Wire.Read.confined_double depth).map _ fun bytes a _ => { held.later bytes.length with }
    case quota =>
      refine (Wrapper.ensures_int64 lawful.signed depth).map _ fun bytes a canonical => ?_
      refine { held.later bytes.length with quota := ?_ }
      rintro _ ⟨⟩
      exact canonical
    case displayName =>
      refine (Wire.Read.ensures_string depth).map _ ?_
      rintro bytes s ⟨-, long⟩
      exact { held.later bytes.length with displayName := by dsimp only; omega }

theorem short_fields {depth n : Nat} {w : Widget F} (held : Readable depth n w) (small : n < 1073741824) :
    ∀ f ∈ (codec F).fields, f.Short w := by
  simp only [codec, fieldCodecs, List.forall_mem_cons]
  refine ⟨?id, ?weight, ?sizes, ?stock, ?created, ?note, ?name, ?count, ?color, ?parts, ?featured, ?blob,
    ?serial, ?ratio, ?quota, ?displayName, by simp⟩
  case id =>
    exact (FieldCodec.bounded_required (by decide) (ValueCodec.bounded_string held.id (by omega))).short
      (by omega)
  case weight =>
    exact (FieldCodec.bounded_required (by decide) (LongForm.bounded_codec Word.lawful_signed _)).short
      (by decide)
  -- A negative size may come in five bytes and go out in ten.
  case sizes =>
    refine (FieldCodec.bounded_packed (n := 2 * n) (by decide) (by omega) ?_ held.sizes).short (by omega)
    rintro i _ ⟨⟩
    rfl
  case stock =>
    refine FieldCodec.short_repeated (n := 2 * (n + 15) + 5) (by decide) (by omega) ?_
    intro e member
    obtain ⟨entry, listed, rfl⟩ := List.mem_map.1 member
    exact StockEntry.bounded_message (held.stock entry listed) (by omega)
  case created =>
    exact (FieldCodec.bounded_optional (by decide) fun a _ => DateForm.bounded_codec a).short (by decide)
  case note =>
    refine (FieldCodec.bounded_optional (by decide) fun s present => ?_).short (by omega : n + 5 + 10 + 5 < _)
    exact Wrapper.bounded_valueCodec (ValueCodec.bounded_string (held.note s present) (by omega)) (by omega)
  case name =>
    refine (FieldCodec.bounded_optional (by decide) fun s present => ?_).short (by omega : n + 5 + 5 < _)
    exact ValueCodec.bounded_string (held.name s present) (by omega)
  case count =>
    exact (FieldCodec.bounded_optional (by decide) fun i _ => ValueCodec.bounded_int32 i).short (by decide)
  case color =>
    refine (FieldCodec.bounded_required (n := 10) (by decide) ?_).short (by decide)
    exact ValueCodec.bounded_via _ fun i _ => ValueCodec.bounded_int32 i
  case parts =>
    exact FieldCodec.short_repeated (n := 3 * n + 5) (by decide) (by omega) fun p member =>
      Part.bounded_codec (held.compact p member) small
  case featured =>
    exact (FieldCodec.bounded_optional (by decide) fun b _ => ValueCodec.bounded_bool b).short (by decide)
  case blob =>
    exact (FieldCodec.bounded_required (by decide) (ValueCodec.bounded_bytes held.blob (by omega))).short
      (by omega)
  case serial =>
    exact (FieldCodec.bounded_required (by decide) (LongForm.bounded_codec Word.lawful_unsigned _)).short
      (by decide)
  case ratio =>
    exact (FieldCodec.bounded_required (by decide) (ValueCodec.bounded_double _)).short (by decide)
  case quota =>
    refine (FieldCodec.bounded_optional (n := 20) (by decide) fun a _ => ?_).short (by decide)
    exact Wrapper.bounded_valueCodec (LongForm.bounded_codec Word.lawful_signed a) (by decide)
  case displayName =>
    exact (FieldCodec.bounded_required (by decide)
      (ValueCodec.bounded_string held.displayName (by omega))).short (by omega)

/-- Whatever widget is read from bytes, well formed or not, can be written and reads as it did. -/
theorem stable (S : OptionSet) {data : ByteArray} (small : data.size < 1073741824) {w : Widget S.form}
    (read : (codec S.form).decode data = .ok w) :
    ∃ b, (codec S.form).encode w = .ok b ∧ (codec S.form).decode b = .ok w.asRead := by
  have pieces := MessageCodec.pieces_of_decode (local_codec S.form) read
  have held := MessageCodec.holds_of_pieces (keeps_readable S.lawful) pieces (Readable.base S.lawful)
  have size : 0 + data.data.toList.length < 1073741824 := by simpa using small
  obtain ⟨records, writes, encode, decode⟩ :=
    MessageCodec.decode_encode (numbered S.form) (delivers S.lawful held.canonical)
  exact ⟨_, encode, decode (MessageCodec.short_records (short_fields held size) writes)⟩

set_option maxRecDepth 4000 in
-- A group that no field claims, a count, and a weight that is written longer than need be.
theorem stable_group :
    (codec OptionSet.strings.form).decode ⟨#[0x8B, 0x01, 0x8C, 0x01, 0x40, 0x05, 0x10, 0x82, 0x00]⟩ =
      .ok { base .texts with weight := "2", label := ⟨none, some 5⟩ } ∧
    ∃ b, (codec OptionSet.strings.form).encode { base .texts with weight := "2", label := ⟨none, some 5⟩ } = .ok b ∧
      (codec OptionSet.strings.form).decode b =
        .ok (asRead { base .texts with weight := "2", label := ⟨none, some 5⟩ }) := by
  have read : (codec OptionSet.strings.form).decode
      ⟨#[0x8B, 0x01, 0x8C, 0x01, 0x40, 0x05, 0x10, 0x82, 0x00]⟩ =
        .ok { base .texts with weight := "2", label := ⟨none, some 5⟩ } := by cbv
  exact ⟨read, stable .strings (by decide) read⟩

end Protogen.Shop.Widget
