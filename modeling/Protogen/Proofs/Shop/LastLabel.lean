import Protogen.Proofs.Codec.JsonMessage
import Protogen.Proofs.Codec.JsonReading
import Protogen.Proofs.Codec.Splitting
import Protogen.Proofs.Shop.Chunks
import Protogen.Proofs.Wire.Grammar

set_option autoImplicit false

namespace Protogen

theorem Wire.Read.ensures_text (depth : Nat) : Ensures string depth fun bytes s =>
    ∃ k size, bytes = size ++ s.toUTF8.data.toList ∧ Varint 0 size k ∧ s.utf8ByteSize = k % 4294967296 := by
  have content : Ensures Read.bytes depth fun bytes b =>
      ∃ k size, bytes = size ++ b.data.toList ∧ Varint 0 size k ∧ b.size = k % 4294967296 := by
    refine (ensures_length_of depth).bind ?_
    rintro size _ ⟨k, number, rfl⟩
    refine (ensures_slice depth _).weaken ?_
    rintro text b ⟨length, rfl⟩
    exact ⟨k, size, rfl, number, length⟩
  refine content.bind ?_
  rintro bytes b ⟨k, size, rfl, number, length⟩
  split
  next s valid =>
    refine Ensures.pure ⟨k, size, ?_, number, ?_⟩
    next => rw [toUTF8_fromUTF8 valid, List.append_nil]
    next =>
      rw [← length, ← toUTF8_fromUTF8 valid]
      rfl
  next => exact Ensures.throw _

namespace Shop

open Wire (CompleteRecord Value Varint WireType fieldOf? recursionLimit)
open Wire.Read (Takes Ensures)

def LabelForm.Shows (B : LabelForm) (l : B.Carrier) : Option LabelChoice → Prop
  | .none => B.name? l = .none ∧ B.count? l = .none
  | some (.name s) => B.name? l = some s ∧ B.count? l = .none
  | some (.count n) => B.name? l = .none ∧ B.count? l = some n

theorem OptionSet.shows (S : OptionSet) :
    S.form.label.Shows S.form.label.none .none ∧
      (∀ s l, S.form.label.Shows (S.form.label.setName s l) (some (.name s))) ∧
        ∀ n l, S.form.label.Shows (S.form.label.setCount n l) (some (.count n)) := by
  cases S <;> exact ⟨⟨rfl, rfl⟩, fun _ _ => ⟨rfl, rfl⟩, fun _ _ => ⟨rfl, rfl⟩⟩

/-- A record of a member of the label with what it says: a text with its length in front, or the lowest 32 bits
of a number. -/
inductive LabelRecord : List UInt8 → LabelChoice → Prop
  | name {n k : Nat} {front size : List UInt8} {s : String} (tag : Varint 0 front n)
      (field : n % 4294967296 / 8 = 7) (length : Varint 0 size k) (fits : s.utf8ByteSize = k % 4294967296) :
      LabelRecord (front ++ (size ++ s.toUTF8.data.toList)) (.name s)
  | count {n k : Nat} {front bytes : List UInt8} (tag : Varint 0 front n) (field : n % 4294967296 / 8 = 8)
      (number : Varint 0 bytes k) : LabelRecord (front ++ bytes) (.count (Int32.ofNat k))

def Unlabelled (record : List UInt8) : Prop :=
  fieldOf? record ≠ some 7 ∧ fieldOf? record ≠ some 8

/-- What the last record of a member of the label says, if there is one. -/
inductive LastLabel : List (List UInt8) → Option LabelChoice → Prop
  | none {records : List (List UInt8)} (others : ∀ record ∈ records, Unlabelled record) : LastLabel records none
  | last {front back : List (List UInt8)} {record : List UInt8} {l : LabelChoice} (own : LabelRecord record l)
      (others : ∀ other ∈ back, Unlabelled other) : LastLabel (front ++ record :: back) (some l)

namespace Widget

variable {F : Form}

theorem leaves_label : ∀ f ∈ fieldCodecs F, f.number ≠ 7 → f.number ≠ 8 → f.Leaves Widget.label := by
  simp only [fieldCodecs, List.forall_mem_cons]
  refine ⟨?_, ?_, ?sizes, ?_, ?_, ?_, ?name, ?count, ?_, ?_, ?_, ?_, ?_, ?_, ?_, ?_, by simp⟩
  case sizes => exact fun _ _ => FieldCodec.leaves_packed Wire.Read.confined_int32 fun _ _ => rfl
  case name => exact fun other => absurd rfl other
  case count => exact fun _ other => absurd rfl other
  all_goals exact fun _ _ => FieldCodec.leaves_of_set (fun _ _ => rfl) fun _ _ => rfl

theorem field_eq {f g : FieldCodec (Widget F)} {n : Nat} (member : g ∈ fieldCodecs F) (named : g.number = n)
    (found : (codec F).fields.find? (·.number == n) = some f) : f = g := by
  have own := MessageCodec.find?_number (numbered F).distinct member
  rw [named, found] at own
  exact Option.some.inj own

theorem label_of_step (S : OptionSet) {w w' : Widget S.form} {record : List UInt8}
    (step : (codec S.form).Step 0 w record w') :
    (∃ l, LabelRecord record l ∧ S.form.label.Shows w'.label (some l)) ∨
      (Unlabelled record ∧ w'.label = w.label) := by
  have nameField_mem : nameField ∈ fieldCodecs S.form := by simp [fieldCodecs, nameField]
  have countField_mem : countField ∈ fieldCodecs S.form := by simp [fieldCodecs, countField]
  obtain ⟨-, name, count⟩ := S.shows
  cases step with
  | @claimed n front payload f _ number found takes =>
    by_cases seven : n % 4294967296 / 8 = 7
    next =>
      obtain rfl := field_eq nameField_mem seven.symm found
      obtain ⟨s, rfl, text⟩ := Wire.Read.confined_string.of_map takes
      obtain ⟨k, size, rfl, length, fits⟩ := text.of_ensures (Wire.Read.ensures_text 0)
      exact .inl ⟨.name s, .name number seven length fits, name s w.label⟩
    next =>
      by_cases eight : n % 4294967296 / 8 = 8
      next =>
        obtain rfl := field_eq countField_mem eight.symm found
        obtain ⟨i, rfl, value⟩ := Wire.Read.confined_int32.of_map takes
        obtain ⟨k, rfl, varint⟩ := Wire.Read.confined_varint.of_map value
        exact .inl ⟨.count (Int32.ofNat k), .count number eight (varint.of_ensures (Wire.Read.ensures_number 0)),
          count _ w.label⟩
      next =>
        have named : f.number = n % 4294967296 / 8 := by simpa using List.find?_some found
        have member := List.mem_of_find?_eq_some found
        have kept := leaves_label f member (named ▸ seven) (named ▸ eight) _ _ _ _ _ takes
        rw [Unlabelled, Wire.fieldOf?_append number]
        exact .inr ⟨⟨by simpa using seven, by simpa using eight⟩, kept⟩
  | @unclaimed n front payload number missing =>
    have other {g : FieldCodec (Widget S.form)} (member : g ∈ fieldCodecs S.form) :
        n % 4294967296 / 8 ≠ g.number := by
      intro same
      exact List.find?_eq_none.1 missing g member (beq_iff_eq.2 same.symm)
    have seven : n % 4294967296 / 8 ≠ 7 := other nameField_mem
    have eight : n % 4294967296 / 8 ≠ 8 := other countField_mem
    rw [Unlabelled, Wire.fieldOf?_append number]
    exact .inr ⟨⟨by simpa using seven, by simpa using eight⟩, rfl⟩

theorem label_of_reads (S : OptionSet) {w w' : Widget S.form} {records : List (List UInt8)}
    (reads : (codec S.form).Reads 0 w records w') :
    (∃ l, LastLabel records (some l) ∧ S.form.label.Shows w'.label (some l)) ∨
      ((∀ record ∈ records, Unlabelled record) ∧ w'.label = w.label) := by
  induction reads with
  | nil => exact .inr ⟨nofun, rfl⟩
  | @cons w w₁ w' record records nonempty first rest ih =>
    rcases ih with ⟨l, last, shows⟩ | ⟨others, kept⟩
    next =>
      cases last with
      | @last front back record' _ own others =>
        have here : LastLabel ((record :: front) ++ record' :: back) (some l) := .last own others
        exact .inl ⟨l, here, shows⟩
    next =>
      rcases label_of_step S (MessageCodec.step_of_takes (local_codec S.form) first) with ⟨l, own, shows⟩ | ⟨apart, same⟩
      next =>
        rw [← kept] at shows
        have here : LastLabel ([] ++ record :: records) (some l) := .last own others
        exact .inl ⟨l, here, shows⟩
      next => exact .inr ⟨List.forall_mem_cons.2 ⟨apart, others⟩, kept.trans same⟩

/-- A complete record of its declared wire type that is a message by itself, or one of a field that widgets do
not have. -/
inductive DeclaredRecord (F : Form) : List UInt8 → Prop
  | unknown {field : Nat} {record : List UInt8} (complete : CompleteRecord recursionLimit field record)
      (unclaimed : field < 1 ∨ 16 < field) : DeclaredRecord F record
  | known {n : Nat} {front bytes : List UInt8} {w : Widget F} (number : Varint 0 front n)
      (value : Value recursionLimit (n % 4294967296) bytes)
      (claimed : 1 ≤ n % 4294967296 / 8 ∧ n % 4294967296 / 8 ≤ 16)
      (declared : Declared (n % 4294967296 / 8) (n % 4294967296 % 8))
      (accepted : (codec F).decode ⟨(front ++ bytes).toArray⟩ = .ok w) : DeclaredRecord F (front ++ bytes)

theorem whole_sizes {tag : Nat} {t : WireType} (type : tag % 8 = t.number) (either : t = .varint ∨ t = .delimited)
    (w : Widget F) : Ensures (sizesField.read tag w) 0 fun bytes _ => Wire.Whole t bytes := by
  rcases either with rfl | rfl
  next =>
    have single : tag % 8 ≠ WireType.delimited.number := by rw [type]; decide
    rw [sizesField, FieldCodec.packed_read_single single]
    exact (ValueCodec.whole_int32 0).map _ fun _ _ held => held
  next =>
    rw [sizesField, FieldCodec.packed_read_run type]
    exact ValueCodec.whole_length (fun n =>
      Wire.Read.confined_within (fun w => Wire.Read.confined_int32.map _) n w) 0

theorem eq_sizesField {f : FieldCodec (Widget F)} (member : f ∈ fieldCodecs F) (sizes : f.number = 3) :
    f = sizesField :=
  field_eq (sizesField_mem F) sizes.symm (MessageCodec.find?_number (numbered F).distinct member)

theorem whole_declared {f : FieldCodec (Widget F)} (member : f ∈ fieldCodecs F) {tag : Nat}
    (declared : Declared f.number (tag % 8)) (w : Widget F) :
    ∃ t : WireType, tag % 8 = t.number ∧ Ensures (f.read tag w) 0 fun bytes _ => Wire.Whole t bytes := by
  by_cases sizes : f.number = 3
  next =>
    obtain rfl := eq_sizesField member sizes
    rcases declared with single | ⟨-, run⟩
    next => exact ⟨.varint, single, whole_sizes single (.inl rfl) w⟩
    next => exact ⟨.delimited, run, whole_sizes run (.inr rfl) w⟩
  next =>
    rcases declared with own | ⟨three, -⟩
    next => exact ⟨ownType f.number, own, whole_other f member sizes tag w 0⟩
    next => exact absurd three sizes

theorem parallel_any : ∀ f ∈ fieldCodecs F, f.Parallel fun _ _ => True := by
  intro f member
  by_cases sizes : f.number = 3
  next =>
    obtain rfl := eq_sizesField member sizes
    exact FieldCodec.parallel_packed fun _ _ _ _ => trivial
  next => exact parallel_apart (fun _ _ _ _ _ => trivial) f member sizes

theorem DeclaredRecord.takes {record : List UInt8} (declared : DeclaredRecord F record) :
    0 < record.length ∧ ∀ w, ∃ w', Takes ((codec F).readRecord w) 0 record w' := by
  have somewhere : ∀ w, ∃ w', Takes ((codec F).readRecord w) 0 record w' := by
    cases declared with
    | unknown complete unclaimed =>
      exact fun w => ⟨w, MessageCodec.takes_unknown complete (Nat.zero_add _).le (find?_unknown unclaimed) w⟩
    | @known n front bytes w₀ number value claimed declared accepted =>
      obtain ⟨f, member, named⟩ := field_of_number (F := F) claimed.1 claimed.2
      have found := MessageCodec.find?_number (numbered F).distinct member
      rw [named] at found
      rw [← named] at declared
      obtain ⟨t, type, whole⟩ := whole_declared member declared (base F)
      obtain ⟨_, alone⟩ := MessageCodec.takes_of_decode_at (local_codec F) number value type found whole accepted
      intro w
      obtain ⟨w', -, here⟩ := (parallel_any f member _ _ w trivial).takes (local_codec F f member _ w) alone
      exact ⟨w', MessageCodec.takes_named number found here⟩
  obtain ⟨_, takes⟩ := somewhere (base F)
  exact ⟨(takes.of_ensures (MessageCodec.confined_readRecord (local_codec F) _ 0)).1, somewhere⟩

/-- The records that bytes are read by. They are the only ones, and those of the wire format where these have the
wire types that are declared. -/
structure ReadBy (bytes : List UInt8) (w : Widget F) (records : List (List UInt8)) : Prop where
  whole : records.flatten = bytes
  reads : (codec F).Reads 0 (base F) records w
  only : ∀ records' w', (codec F).Reads 0 (base F) records' w' → records'.flatten = bytes → records' = records
  declared : ∀ records', (∀ record ∈ records', DeclaredRecord F record) → records'.flatten = bytes → records' = records

theorem exists_readBy {data : ByteArray} {w : Widget F} (success : (codec F).decode data = .ok w) :
    ∃ records, ReadBy data.data.toList w records := by
  obtain ⟨records, whole, reads⟩ := MessageCodec.exists_reads_of_decode (local_codec F) success
  have only : ∀ records' w', (codec F).Reads 0 (base F) records' w' → records'.flatten = data.data.toList →
      records' = records := fun _ _ reads' same => (reads'.unique reads (same.trans whole.symm)).1
  refine ⟨records, whole, reads, only, fun records' each same => ?_⟩
  obtain ⟨w', reads'⟩ := MessageCodec.exists_reads (fun record member => (each record member).takes) (base F)
  exact only records' w' reads' same

theorem count_of_read (S : OptionSet) {members : List (String × Json)} {v : Json} {w : Widget S.form}
    (there : Json.member? members "count" = some v) (read : (json S.form).read (.object members) = .ok w) :
    ∃ n, JsonCodec.int32.read v = .ok n ∧ S.form.label.Shows w.label (some (.count n)) := by
  have split : (json S.form).fields = (json S.form).fields.take 7 ++
      .optional "count" .int32 (S.form.label.count? ·.label)
        (fun a w => { w with label := S.form.label.setCount a w.label }) :: (json S.form).fields.drop 8 := rfl
  change (json S.form).fields.foldlM (JsonMessage.readField members) (base S.form) = .ok w at read
  -- The name is among the seven fields that are read first.
  rw [split, List.foldlM_append] at read
  obtain ⟨w₁, -, read⟩ := ok_of_bind read
  rw [List.foldlM_cons] at read
  obtain ⟨w₂, own, rest⟩ := ok_of_bind read
  simp only [JsonMessage.readField, JsonField.optional, there] at own
  obtain ⟨n, number, own⟩ := ok_of_bind own
  cases own
  refine ⟨n, number, ?_⟩
  have keeps : ∀ f ∈ (json S.form).fields.drop 8,
      f.Keeps fun w => S.form.label.Shows w.label (some (.count n)) := by
    simp only [json, List.drop_succ_cons, List.drop_zero, List.forall_mem_cons]
    refine ⟨?_, ?_, ?featured, ?_, ?_, ?_, ?quota, ?_, by simp⟩
    case featured | quota => exact JsonField.keeps_optional (.any _) fun _ _ _ held => held
    all_goals exact JsonField.keeps_required (.any _) fun _ _ _ held => held
  have kept : ∀ f ∈ (json S.form).fields.drop 8, ∀ w w', JsonMessage.readField members w f = .ok w' →
      S.form.label.Shows w.label (some (.count n)) → S.form.label.Shows w'.label (some (.count n)) := by
    intro f member w w' step held
    rw [JsonMessage.readField] at step
    split at step
    next v _ => exact keeps f member v w w' step held
    next =>
      cases step
      exact held
  have shows := holds_of_foldlM kept rest (S.shows.2.2 n w₁.label)
  exact shows

/-- A widget that is decoded has the member of the last record of one, and no member where there is no such record.
One that is read from JSON with a name and a count has the count. -/
theorem last_label (S : OptionSet) :
    (∀ (data : ByteArray) (w : Widget S.form), (codec S.form).decode data = .ok w →
      ∃ records l, ReadBy data.data.toList w records ∧ LastLabel records l ∧ S.form.label.Shows w.label l) ∧
    (∀ (members : List (String × Json)) (u v : Json) (w : Widget S.form), Json.member? members "name" = some u →
      Json.member? members "count" = some v → (json S.form).read (.object members) = .ok w →
        ∃ n, JsonCodec.int32.read v = .ok n ∧ S.form.label.Shows w.label (some (.count n))) ∧
    ∀ (text : String) (members : List (String × Json)) (u v : Json) (w : Widget S.form),
      Json.parse? text = some (.object members) → Json.member? members "name" = some u →
        Json.member? members "count" = some v → (json S.form).readText text = .ok w →
          ∃ n, JsonCodec.int32.read v = .ok n ∧ S.form.label.Shows w.label (some (.count n)) := by
  refine ⟨fun data w success => ?_, fun members u v w _ there read => count_of_read S there read,
    fun text members u v w parsed _ there read => ?_⟩
  next =>
    obtain ⟨records, readBy⟩ := exists_readBy success
    rcases label_of_reads S readBy.reads with ⟨l, last, shows⟩ | ⟨others, kept⟩
    next => exact ⟨records, some l, readBy, last, shows⟩
    next =>
      have shows : S.form.label.Shows w.label none := by
        rw [kept]
        exact S.shows.1
      exact ⟨records, none, readBy, .none others, shows⟩
  next =>
    rw [JsonMessage.readText, parsed] at read
    exact count_of_read S there read

def renamedBytes : List UInt8 :=
  [0x40, 0x05, 0x3A, 0x01, 0x78, 0x0A, 0x01, 0x77]

def renamed : Widget .bigs :=
  { base .bigs with id := "w", label := some (.name "x") }

def tallied : Widget .bigs :=
  { base .bigs with label := some (.count 5) }

set_option maxRecDepth 4000 in
theorem last_label_name :
    ((codec OptionSet.bigints.form).decode ⟨renamedBytes.toArray⟩ = .ok renamed ∧
      ∃ records, ReadBy renamedBytes renamed records ∧ LastLabel records (some (.name "x")) ∧
        OptionSet.bigints.form.label.Shows renamed.label (some (.name "x"))) ∧
    (json OptionSet.bigints.form).read (.object [("count", .int 5), ("name", .string "x")]) = .ok tallied ∧
    (json OptionSet.bigints.form).readText "\x7b\"name\":\"x\",\"count\":5\x7d" = .ok tallied ∧
      OptionSet.bigints.form.label.Shows tallied.label (some (.count 5)) := by
  have bytes : (codec OptionSet.bigints.form).decode ⟨renamedBytes.toArray⟩ = .ok renamed := by cbv
  have object : (json OptionSet.bigints.form).read (.object [("count", .int 5), ("name", .string "x")]) =
      .ok tallied := by cbv
  have text : (json OptionSet.bigints.form).readText "\x7b\"name\":\"x\",\"count\":5\x7d" = .ok tallied := by cbv
  have parsed : Json.parse? "\x7b\"name\":\"x\",\"count\":5\x7d" =
      some (.object [("count", .int 5), ("name", .string "x")]) := by cbv
  obtain ⟨decoded, -, readText⟩ := last_label .bigints
  obtain ⟨records, l, readBy, last, shows⟩ := decoded _ _ bytes
  have name : l = some (.name "x") := by
    rcases l with _ | s | n
    · exact absurd shows.1 (Option.some_ne_none _)
    · rw [Option.some.inj shows.1]
    · exact absurd shows.1 (Option.some_ne_none _)
  obtain ⟨n, five, count⟩ := readText _ _ _ _ _ parsed rfl rfl text
  have value : n = 5 := by
    have known : JsonCodec.int32.read (.int 5) = .ok 5 := by cbv
    exact Except.ok.inj (five.symm.trans known)
  exact ⟨⟨bytes, records, readBy, name ▸ last, name ▸ shows⟩, object, text, value ▸ count⟩

end Widget

end Shop

end Protogen
