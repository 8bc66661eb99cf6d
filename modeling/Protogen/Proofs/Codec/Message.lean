import Protogen.Codec.Message
import Protogen.Proofs.Codec.Field
import Protogen.Proofs.Wire.Records

set_option autoImplicit false

namespace Protogen

open Wire (Read Reader varintBytes)
open Wire.Read (Takes Ensures Confined Pieces)

namespace MessageCodec

variable {μ : Type} {depth : Nat} {c : MessageCodec μ} {f : FieldCodec μ} {m m' w : μ}

structure Numbered (c : MessageCodec μ) : Prop where
  small : ∀ f ∈ c.fields, f.number < 536870912
  distinct : c.fields.Pairwise fun f g => f.number ≠ g.number

theorem Numbered.of_numbers (numbers : List Nat) (same : c.fields.map (·.number) = numbers)
    (small : ∀ n ∈ numbers, n < 536870912) (distinct : numbers.Nodup) : c.Numbered where
  small f member := by
    apply small
    rw [← same]
    exact List.mem_map_of_mem member
  distinct := by
    rw [← same] at distinct
    exact List.pairwise_map.1 distinct

def Local (c : MessageCodec μ) : Prop :=
  ∀ f ∈ c.fields, f.Local

theorem find?_number {fields : List (FieldCodec μ)}
    (distinct : fields.Pairwise fun f g => f.number ≠ g.number) (member : f ∈ fields) :
    fields.find? (·.number == f.number) = some f := by
  induction fields with
  | nil => simp at member
  | cons g fields ih =>
    obtain ⟨apart, distinct⟩ := List.pairwise_cons.1 distinct
    rcases List.mem_cons.1 member with rfl | member
    · simp
    · have other : (g.number == f.number) = false := by simpa using apart f member
      rw [List.find?_cons, other]
      exact ih distinct member

theorem takes_readRecord {record : List UInt8} (numbered : c.Numbered) (member : f ∈ c.fields)
    (takes : f.TakesRecord depth m record m') : Takes (c.readRecord m) depth record m' := by
  obtain ⟨wireType, payload, rfl, takes⟩ := takes
  refine (Wire.Read.takes_tag depth (FieldCodec.tag_lt (numbered.small f member) wireType)).bind ?_
  rw [FieldCodec.tag_div, find?_number numbered.distinct member]
  exact takes

theorem confined_afterTag (fields : c.Local) (m : μ) (tag : Nat) :
    Confined 0 (match c.fields.find? (·.number == tag / 8) with
      | some f => f.read tag m
      | none => do
        Read.skip tag
        return m) := by
  split
  next f found => exact fields f (List.mem_of_find?_eq_some found) tag m
  next => exact (Wire.Read.confined_skip tag).followed fun _ => Confined.pure m

theorem confined_readRecord (fields : c.Local) (m : μ) : Confined 1 (c.readRecord m) :=
  Wire.Read.confined_tag.followed (confined_afterTag fields m)

theorem confined_read (fields : c.Local) (n : Nat) : Confined n (c.read (some n)) :=
  Wire.Read.confined_within (confined_readRecord fields) n c.base

theorem confined_message (fields : c.Local) : Confined 1 (ValueCodec.message c).read :=
  Wire.Read.confined_length_bind fun n => (confined_read fields n).nested

theorem takes_message {bytes : List UInt8} (shallow : depth < Wire.recursionLimit)
    (short : bytes.length < 4294967296)
    (pieces : Pieces c.readRecord (depth + 1) bytes.length c.base bytes m) :
    Takes (ValueCodec.message c).read depth (Wire.Bytes.delimited bytes) m :=
  Wire.Read.takes_length_bind short (Nat.le_refl _) (pieces.takes_within.nested shallow)

theorem pieces_of_takes_message {content rest payload : List UInt8} (fields : c.Local)
    (short : content.length < 4294967296) (takes : Takes (ValueCodec.message c).read depth payload m)
    (stand : payload <+: Wire.Bytes.delimited content ++ rest) :
    ∃ bytes, payload = varintBytes content.length ++ bytes ∧ bytes <+: content ++ rest ∧
      Pieces c.readRecord (depth + 1) content.length c.base bytes m := by
  have whole := Reader.at_holding depth (varintBytes content.length ++ (content ++ rest))
  rw [Wire.Bytes.delimited, List.append_assoc] at stand
  have here : (Reader.holding depth (varintBytes content.length ++ (content ++ rest))).At depth payload :=
    ⟨whole.level, whole.inside, stand.trans whole.front⟩
  have room := whole.room
  rw [List.length_append, List.length_append] at room
  have same := Nat.mod_eq_of_lt short
  have length := Wire.Read.length_ok (Wire.Read.takes_varint depth (by omega)) whole.left (by omega)
  have success : (Read.length >>= fun n => Read.nested (c.read (some n))) _ = _ := takes _ here
  rw [Wire.Read.bind_of_ok length, same] at success
  obtain ⟨bytes, there, ends, -, pieces⟩ := (Wire.Read.ensures_within (confined_readRecord fields)
    (depth + 1) content.length c.base).nested _ _ _ whole.right.level whole.right.inside success
  rw [Reader.advance_advance] at ends
  refine ⟨bytes, here.unique (whole.left.append there) ?_, ?_, pieces⟩
  · rw [List.length_append]
    exact Reader.advance_inj ends
  · have front := there.front
    rwa [Reader.remaining_advance, Reader.remaining_holding, List.drop_left] at front

theorem decode_of_pieces {bytes : List UInt8}
    (pieces : Pieces c.readRecord 0 bytes.length c.base bytes m) :
    c.decode ⟨bytes.toArray⟩ = .ok m := by
  have success : Read.whileBefore bytes.length c.readRecord bytes.length c.base (Reader.holding 0 bytes) = _ :=
    pieces.whileBefore (Reader.at_holding 0 bytes) (Nat.sub_zero _) (Nat.le_refl _)
  have read : c.read none (.ofBytes ⟨bytes.toArray⟩) = .ok m _ := success
  rw [decode, read]

theorem pieces_of_decode {data : ByteArray} (fields : c.Local) (success : c.decode data = .ok m) :
    Pieces c.readRecord 0 data.size c.base data.data.toList m := by
  rw [decode] at success
  split at success
  next m' r read =>
    cases success
    obtain ⟨bytes, here, -, pieces⟩ :=
      Wire.Read.pieces_of_whileBefore (confined_readRecord fields) (Nat.zero_le _) (Nat.le_refl _) read
    -- The loop goes on to the end of the buffer, so the pieces are all of it.
    have room : 0 + bytes.length ≤ data.size := here.room
    have long : data.size - 0 ≤ bytes.length := pieces.le_length
    have size : data.data.toList.length = data.size := by simp
    have all : bytes = data.data.toList := here.front.eq_of_length (by
      change bytes.length = data.data.toList.length
      omega)
    rwa [all] at pieces
  next => cases success

-- What follows the bytes of a message is read into that message.
theorem decode_append_iff {data : ByteArray} (fields : c.Local) (success : c.decode data = .ok m)
    (more : List UInt8) : c.decode ⟨(data.data.toList ++ more).toArray⟩ = .ok m' ↔
      Pieces c.readRecord 0 more.length m more m' := by
  have first := pieces_of_decode fields success
  have size : data.data.toList.length = data.size := by simp
  constructor
  · intro both
    have pieces := pieces_of_decode fields both
    have total : (data.data.toList ++ more).toArray.size = data.size + more.length := by
      rw [List.size_toArray, List.length_append, size]
    rw [ByteArray.size, total] at pieces
    exact first.of_append size pieces
  · intro second
    have both := first.append size second
    rw [← size, ← List.length_append] at both
    exact decode_of_pieces both

theorem pieces_tag_iff {tag n : Nat} {rest : List UInt8} (fields : c.Local) (small : tag < 4294967296)
    (found : c.fields.find? (·.number == tag / 8) = some f) :
    Pieces c.readRecord depth ((varintBytes tag).length + n) m (varintBytes tag ++ rest) m' ↔
      ∃ payload more m₁, rest = payload ++ more ∧ Takes (f.read tag m) depth payload m₁ ∧
        Pieces c.readRecord depth (n - payload.length) m₁ more m' := by
  have named := Wire.Read.takes_tag depth small
  have nonempty := Wire.length_varintBytes_pos tag
  constructor
  · intro pieces
    generalize whole : varintBytes tag ++ rest = bytes at pieces
    generalize total : (varintBytes tag).length + n = k at pieces
    cases pieces with
    | done => omega
    | @step _ _ m₁ _ record more left nonempty first others =>
      -- The first piece is a record: it starts with the tag, and what is left of it is the field's.
      have stand : record <+: varintBytes tag ++ rest := ⟨more, whole.symm⟩
      obtain ⟨payload, rfl, takes⟩ := Confined.split (confined_afterTag fields m) named first stand
      rw [found] at takes
      rw [List.append_assoc] at whole
      refine ⟨payload, more, m₁, List.append_cancel_left whole, takes, ?_⟩
      rw [List.length_append] at others
      have fewer : k - ((varintBytes tag).length + payload.length) = n - payload.length := by omega
      rwa [fewer] at others
  · rintro ⟨payload, more, m₁, rfl, takes, others⟩
    have first : Takes (c.readRecord m) depth (varintBytes tag ++ payload) m₁ := by
      refine named.bind ?_
      rw [found]
      exact takes
    rw [← List.append_assoc]
    refine .step (by omega) (by rw [List.length_append]; omega) first ?_
    have fewer : (varintBytes tag).length + n - (varintBytes tag ++ payload).length =
        n - payload.length := by
      rw [List.length_append]
      omega
    rwa [fewer]

inductive Delivers (depth : Nat) (w : μ) : List (FieldCodec μ) → μ → μ → Prop
  | nil (m : μ) : Delivers depth w [] m m
  | cons {fields : List (FieldCodec μ)} {f : FieldCodec μ} {m m₁ m₂ : μ}
      (first : f.Delivers depth w m m₁) (rest : Delivers depth w fields m₁ m₂) :
      Delivers depth w (f :: fields) m m₂

theorem Delivers.through {fields : List (FieldCodec μ)} {f : FieldCodec μ} {m m₂ : μ} (m₁ : μ)
    (first : f.Delivers depth w m m₁) (rest : Delivers depth w fields m₁ m₂) :
    Delivers depth w (f :: fields) m m₂ :=
  .cons first rest

theorem Delivers.of_append {front back : List (FieldCodec μ)} (delivers : Delivers depth w (front ++ back) m m') :
    ∃ m₁, Delivers depth w front m m₁ ∧ Delivers depth w back m₁ m' := by
  induction front generalizing m with
  | nil => exact ⟨m, .nil m, delivers⟩
  | cons f front ih =>
    cases delivers with
    | cons first rest =>
      obtain ⟨m₁, early, late⟩ := ih rest
      exact ⟨m₁, .cons first early, late⟩

inductive Reads (c : MessageCodec μ) (depth : Nat) : μ → List (List UInt8) → μ → Prop
  | nil (m : μ) : Reads c depth m [] m
  | cons {m m₁ m₂ : μ} {record : List UInt8} {records : List (List UInt8)} (nonempty : 0 < record.length)
      (first : Takes (c.readRecord m) depth record m₁) (rest : Reads c depth m₁ records m₂) :
      Reads c depth m (record :: records) m₂

theorem Reads.append {m m₁ m₂ : μ} {records more : List (List UInt8)} (first : c.Reads depth m records m₁)
    (second : c.Reads depth m₁ more m₂) : c.Reads depth m (records ++ more) m₂ := by
  induction first with
  | nil => exact second
  | cons nonempty first _ ih => exact .cons nonempty first (ih second)

theorem Reads.pieces {records : List (List UInt8)} (reads : c.Reads depth m records m') :
    Pieces c.readRecord depth records.flatten.length m records.flatten m' := by
  induction reads with
  | nil => exact .done _
  | cons nonempty first _ ih =>
    rw [List.flatten_cons, List.length_append]
    exact (Pieces.single nonempty first).append rfl ih

theorem reads_of_takesRecords {records : List (List UInt8)} (numbered : c.Numbered)
    (member : f ∈ c.fields) (takes : f.TakesRecords depth m records m') : c.Reads depth m records m' := by
  induction takes with
  | nil => exact .nil _
  | @cons m m₁ m₂ record records first rest ih =>
    have nonempty : 0 < record.length := by
      obtain ⟨wireType, payload, rfl, -⟩ := first
      have := Wire.length_varintBytes_pos (FieldCodec.tag f.number wireType)
      rw [List.length_append]
      omega
    exact .cons nonempty (takes_readRecord numbered member first) ih

theorem reads_of_delivers {fields : List (FieldCodec μ)} (numbered : c.Numbered)
    (members : ∀ f ∈ fields, f ∈ c.fields) (delivers : Delivers depth w fields m m') :
    ∃ records, fields.mapM (·.records w) = .ok records ∧
      ((∀ record ∈ records.flatten, record.length < 4294967296) → c.Reads depth m records.flatten m') := by
  induction delivers with
  | nil m => exact ⟨[], rfl, fun _ => .nil m⟩
  | @cons fields f m m₁ m₂ first rest ih =>
    obtain ⟨records, writes, takes⟩ := first
    obtain ⟨others, writes', reads⟩ := ih fun g member => members g (List.mem_cons_of_mem _ member)
    refine ⟨records :: others, ?_, fun short => ?_⟩
    · rw [List.mapM_cons, writes, writes']
      rfl
    · rw [List.flatten_cons] at short
      have front := reads_of_takesRecords numbered (members f (List.mem_cons_self ..))
        (takes fun record member => short record (List.mem_append_left _ member))
      rw [List.flatten_cons]
      exact front.append (reads fun record member => short record (List.mem_append_right _ member))

theorem pieces_of_delivers {fields : List (FieldCodec μ)} (numbered : c.Numbered)
    (members : ∀ f ∈ fields, f ∈ c.fields) (delivers : Delivers depth w fields m m') :
    ∃ records, fields.mapM (·.records w) = .ok records ∧
      ((∀ record ∈ records.flatten, record.length < 4294967296) →
        Pieces c.readRecord depth records.flatten.flatten.length m records.flatten.flatten m') := by
  obtain ⟨records, writes, reads⟩ := reads_of_delivers numbered members delivers
  exact ⟨records, writes, fun short => (reads short).pieces⟩

theorem reads_of_records (numbered : c.Numbered) (delivers : Delivers depth w c.fields c.base m) :
    ∃ records, c.records w = .ok records ∧
      ((∀ record ∈ records, record.length < 4294967296) → c.Reads depth c.base records m) := by
  obtain ⟨records, writes, reads⟩ := reads_of_delivers numbered (fun _ member => member) delivers
  refine ⟨records.flatten, ?_, reads⟩
  rw [MessageCodec.records, writes]
  rfl

theorem pieces_of_records (numbered : c.Numbered) (delivers : Delivers depth w c.fields c.base m) :
    ∃ records, c.records w = .ok records ∧
      ((∀ record ∈ records, record.length < 4294967296) →
        Pieces c.readRecord depth records.flatten.length c.base records.flatten m) := by
  obtain ⟨records, writes, reads⟩ := reads_of_records numbered delivers
  exact ⟨records, writes, fun short => (reads short).pieces⟩

theorem short_of_flatten {records : List (List UInt8)} {limit : Nat}
    (short : records.flatten.length < limit) : ∀ record ∈ records, record.length < limit := by
  intro record member
  exact Nat.lt_of_le_of_lt (List.sublist_flatten_of_mem member).length_le short

theorem carries_message (numbered : c.Numbered) (shallow : depth < Wire.recursionLimit)
    (delivers : Delivers (depth + 1) w c.fields c.base m) :
    (ValueCodec.message c).Carries depth w m := by
  obtain ⟨records, writes, pieces⟩ := pieces_of_records numbered delivers
  refine ⟨Wire.Bytes.delimited records.flatten, ?_, fun short => ?_⟩
  · simp only [ValueCodec.message, write, writes]
    rfl
  · rw [Wire.Bytes.delimited, List.length_append] at short
    have content : records.flatten.length < 4294967296 := by omega
    exact takes_message shallow content (pieces (short_of_flatten content))

theorem encode_of_records {records : List (List UInt8)} (writes : c.records w = .ok records) :
    c.encode w = .ok ⟨records.flatten.toArray⟩ := by
  rw [encode, write, writes]
  rfl

theorem encode_of_split {front back : List (FieldCodec μ)} {fronts backs : List (List (List UInt8))}
    {own : List (List UInt8)} (split : c.fields = front ++ f :: back) (early : front.mapM (·.records w) = .ok fronts)
    (first : f.records w = .ok own) (late : back.mapM (·.records w) = .ok backs) :
    c.encode w = .ok ⟨(fronts.flatten.flatten ++ own.flatten ++ backs.flatten.flatten).toArray⟩ := by
  have records : c.records w = .ok (fronts ++ own :: backs).flatten := by
    rw [MessageCodec.records, split, List.mapM_append, early, List.mapM_cons, first, late]
    rfl
  have whole : (fronts ++ own :: backs).flatten.flatten =
      fronts.flatten.flatten ++ own.flatten ++ backs.flatten.flatten := by simp
  rw [encode_of_records records, whole]

theorem decode_encode (numbered : c.Numbered) (delivers : Delivers 0 w c.fields c.base m) :
    ∃ records, c.records w = .ok records ∧ c.encode w = .ok ⟨records.flatten.toArray⟩ ∧
      ((∀ record ∈ records, record.length < 4294967296) →
        c.decode ⟨records.flatten.toArray⟩ = .ok m) := by
  obtain ⟨records, writes, pieces⟩ := pieces_of_records numbered delivers
  exact ⟨records, writes, encode_of_records writes, fun short => decode_of_pieces (pieces short)⟩

-- A property of messages and numbers of bytes that reading a record keeps, with the bytes that it takes added.
structure Keeps (c : MessageCodec μ) (depth : Nat) (holds : Nat → μ → Prop) : Prop where
  more : ∀ {n n' m}, n ≤ n' → holds n m → holds n' m
  field : ∀ f ∈ c.fields, ∀ tag n m, holds n m →
    Ensures (f.read tag m) depth fun bytes m' => holds (n + 1 + bytes.length) m'

theorem ensures_readRecord {holds : Nat → μ → Prop} {n : Nat} (keeps : c.Keeps depth holds)
    (start : holds n m) :
    Ensures (c.readRecord m) depth fun bytes m' => holds (n + bytes.length) m' := by
  refine (Wire.Read.confined_tag depth).bind ?_
  rintro front tag ⟨long, -⟩
  split
  next f found =>
    refine (keeps.field f (List.mem_of_find?_eq_some found) tag n m start).weaken ?_
    intro bytes m' done
    refine keeps.more ?_ done
    rw [List.length_append]
    omega
  next =>
    refine (Wire.Read.confined_skip tag depth).map (fun _ => m) ?_
    intro bytes _ _
    exact keeps.more (Nat.le_add_right ..) start

theorem holds_of_pieces {holds : Nat → μ → Prop} {k n : Nat} {bytes : List UInt8}
    (keeps : c.Keeps depth holds) (pieces : Pieces c.readRecord depth k m bytes m')
    (start : holds n m) : holds (n + bytes.length) m' :=
  pieces.invariant (fun _ _ => ensures_readRecord keeps) start

theorem ensures_message {holds : Nat → μ → Prop} (fields : c.Local)
    (keeps : c.Keeps (depth + 1) holds) (start : holds 0 c.base) :
    Ensures (ValueCodec.message c).read depth fun bytes m =>
      depth < Wire.recursionLimit ∧ ∃ n, n + 1 ≤ bytes.length ∧ holds n m := by
  refine (Wire.Read.ensures_length depth).bind ?_
  rintro front n ⟨long, -⟩
  refine (Wire.Read.ensures_within (confined_readRecord fields) (depth + 1) n c.base).nested.weaken ?_
  rintro bytes m ⟨shallow, pieces⟩
  refine ⟨shallow, 0 + bytes.length, ?_, holds_of_pieces keeps pieces start⟩
  rw [List.length_append]
  omega

-- Messages cut short: records can be read up to where one of them ends, and up to nowhere else.

section Front

variable {n : Nat} {record : List UInt8} {records : List (List UInt8)}

theorem not_pieces_take (first : Takes (c.readRecord m) depth record m') (some : 0 < n)
    (short : n < record.length) (t : μ) : ¬Pieces c.readRecord depth n m (record.take n) t := by
  intro pieces
  have length : (record.take n).length = n := List.length_take_of_le (Nat.le_of_lt short)
  generalize front : record.take n = bytes at pieces length
  cases pieces with
  | done => omega
  | @step _ _ _ _ piece more left nonempty takes rest =>
    have stand : piece <+: record :=
      (List.prefix_append piece more).trans (front ▸ List.take_prefix n record)
    -- What is read from the first bytes would be read as well were the others there.
    have same := (takes.unique_front first stand List.prefix_rfl).1
    rw [List.length_append, same] at length
    omega

theorem Reads.pieces_take_iff (reads : c.Reads depth m records m') (inside : n ≤ records.flatten.length) :
    (∃ t, Pieces c.readRecord depth n m (records.flatten.take n) t) ↔ Wire.EndsAt records n := by
  induction reads generalizing n with
  | nil m =>
    have none : n = 0 := Nat.le_zero.1 inside
    subst none
    exact iff_of_true ⟨m, .done m⟩ (Wire.endsAt_zero _)
  | @cons m m₁ m₂ record records nonempty first rest ih =>
    rw [List.flatten_cons, List.length_append] at inside
    rw [List.flatten_cons]
    rcases Nat.eq_zero_or_pos n with none | some
    next =>
      subst none
      exact iff_of_true ⟨m, .done m⟩ (Wire.endsAt_zero _)
    next =>
      rw [Wire.endsAt_cons_iff some]
      rcases Nat.lt_or_ge n record.length with short | long
      next =>
        rw [List.take_append_of_le_length (Nat.le_of_lt short)]
        exact iff_of_false (fun pieces => not_pieces_take first some short _ pieces.choose_spec) fun ends =>
          Nat.not_le.2 short ends.1
      next =>
        -- The record is read whole, and what is left to decide is where the bytes behind it are cut.
        have whole := Pieces.single nonempty first
        have total : record.length + (n - record.length) = n := by omega
        rw [List.take_append, List.take_of_length_le long, and_iff_right long, ← ih (by omega)]
        constructor
        next =>
          rintro ⟨t, pieces⟩
          rw [← total] at pieces
          exact ⟨t, whole.of_append rfl (by simpa only [Nat.add_sub_cancel_left] using pieces)⟩
        next =>
          rintro ⟨t, pieces⟩
          have both := whole.append rfl pieces
          rw [total] at both
          exact ⟨t, both⟩

-- The first bytes of a message that is read record by record are a message exactly up to the end of a record.
theorem decode_take_iff (fields : c.Local) (reads : c.Reads 0 c.base records m)
    (complete : ∀ record ∈ records, Wire.IsRecord record) (inside : n ≤ records.flatten.length) :
    (∃ t, c.decode ⟨(records.flatten.take n).toArray⟩ = .ok t) ↔ Wire.Boundary records.flatten n := by
  have length : (records.flatten.take n).length = n := List.length_take_of_le inside
  rw [Wire.boundary_flatten_iff complete, ← reads.pieces_take_iff inside]
  constructor
  next =>
    rintro ⟨t, success⟩
    have pieces := pieces_of_decode fields success
    rw [ByteArray.size, List.size_toArray, length] at pieces
    exact ⟨t, pieces⟩
  next =>
    rintro ⟨t, pieces⟩
    refine ⟨t, decode_of_pieces ?_⟩
    rwa [length]

end Front

end MessageCodec

-- Messages of two types whose fields are written alike are written alike.

namespace FieldCodec

variable {μ ν α β : Type} {number : Nat} {c : ValueCodec α} {d : ValueCodec β} {w : μ} {v : ν}

theorem record_congr {a : α} {b : β} (wireType : c.wireType = d.wireType) (write : c.write a = d.write b) :
    record number c a = record number d b := by
  rw [record, record, wireType, write]

theorem records_required {isDefault : α → Bool} {isDefault' : β → Bool} {get : μ → α} {get' : ν → β}
    {set : α → μ → μ} {set' : β → ν → ν} (elided : isDefault (get w) = isDefault' (get' v))
    (wireType : c.wireType = d.wireType) (write : c.write (get w) = d.write (get' v)) :
    (required number c isDefault get set).records w = (required number d isDefault' get' set').records v := by
  simp only [required, elided, record_congr wireType write]

theorem records_optional {get : μ → Option α} {get' : ν → Option β} {set : α → μ → μ} {set' : β → ν → ν}
    {holds : α → β → Prop} (wireType : c.wireType = d.wireType) (same : Option.Rel holds (get w) (get' v))
    (write : ∀ {a b}, holds a b → c.write a = d.write b) :
    (optional number c get set).records w = (optional number d get' set').records v := by
  simp only [optional]
  generalize get w = a at same
  generalize get' v = b at same
  cases same with
  | none => rfl
  | some holds => simp only [record_congr wireType (write holds)]

end FieldCodec

namespace MessageCodec

variable {μ ν : Type} {c : MessageCodec μ} {d : MessageCodec ν} {w : μ} {v : ν}

theorem records_congr (same : c.fields.map (·.records w) = d.fields.map (·.records v)) :
    c.records w = d.records v := by
  have collect {σ : Type} (fields : List (FieldCodec σ)) (m : σ) :
      fields.mapM (·.records m) = (fields.map (·.records m)).mapM id := by
    rw [List.mapM_map]
    rfl
  rw [records, records, collect, collect, same]

theorem write_congr (same : c.records w = d.records v) :
    (ValueCodec.message c).write w = (ValueCodec.message d).write v := by
  simp only [ValueCodec.message, write, same]

theorem encode_congr (same : c.records w = d.records v) : c.encode w = d.encode v := by
  simp only [encode, write, same]

end MessageCodec

end Protogen
