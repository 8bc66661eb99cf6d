import Protogen.Proofs.Codec.Length
import Protogen.Shop.Part

set_option autoImplicit false

namespace Protogen.Shop.Part

open Wire (Read varintBytes)
open Wire.Read (Takes Ensures Confined Pieces)

variable {depth : Nat}

-- How many parts there are, one inside the other.
def height : Part → Nat
  | ⟨_, none⟩ => 1
  | ⟨_, some c⟩ => c.height + 1

def skuBytes (sku : String) : List UInt8 :=
  if sku.isEmpty then [] else varintBytes (FieldCodec.tag 1 .delimited) ++ Wire.Bytes.string sku

def childBytes : Option Part → List UInt8
  | none => []
  | some c => varintBytes (FieldCodec.tag 2 .delimited) ++ Wire.Bytes.delimited c.bytes

theorem bytes_eq (p : Part) : p.bytes = skuBytes p.sku ++ childBytes p.child := by
  obtain ⟨sku, child⟩ := p
  cases child <;> simp only [bytes, skuBytes, childBytes]

theorem height_pos (p : Part) : 0 < p.height := by
  obtain ⟨sku, child⟩ := p
  cases child <;> simp [height]

theorem height_child {p c : Part} (child : p.child = some c) : p.height = c.height + 1 := by
  obtain ⟨sku, child'⟩ := p
  cases child
  rw [height]

-- A child in which parts nest one level less. At the last level none can be read.
def childCodec (levels : Nat) : ValueCodec Part where
  wireType := .delimited
  read :=
    match levels with
    | 0 => Read.message fun _ => throw (.recursionLimit Wire.recursionLimit)
    | levels + 1 => Read.message (codecTo levels).read
  write c := .ok (Wire.Bytes.delimited c.bytes)

theorem fields_codecTo (k : Nat) : (codecTo k).fields = [
    .required 1 .string (·.isEmpty) (·.sku) fun a p => { p with sku := a },
    .optional 2 (childCodec k) (·.child) fun a p => { p with child := some a }] := by
  cases k <;> rfl

theorem base_codecTo (k : Nat) : (codecTo k).base = base := by
  cases k <;> rfl

theorem numbered (k : Nat) : (codecTo k).Numbered :=
  .of_numbers [1, 2] (by rw [fields_codecTo]; rfl) (by decide) (by decide)

theorem local_codecTo (k : Nat) : (codecTo k).Local := by
  induction k with
  | zero =>
    simp only [MessageCodec.Local, fields_codecTo, List.forall_mem_cons]
    refine ⟨FieldCodec.local_required Wire.Read.confined_string, FieldCodec.local_optional ?_, by simp⟩
    exact Wire.Read.confined_length_bind fun n => (Confined.throw n _).nested
  | succ k ih =>
    simp only [MessageCodec.Local, fields_codecTo, List.forall_mem_cons]
    exact ⟨FieldCodec.local_required Wire.Read.confined_string,
      FieldCodec.local_optional (MessageCodec.confined_message ih), by simp⟩

theorem write_codecTo (k : Nat) (p : Part) : (codecTo k).write p = .ok p.bytes := by
  obtain ⟨sku, child⟩ := p
  rw [MessageCodec.write, MessageCodec.records, fields_codecTo, bytes_eq, skuBytes]
  simp only [List.mapM_cons, List.mapM_nil, FieldCodec.required, FieldCodec.optional]
  -- The two codecs differ in how a child is read, but not in how it is written.
  cases sku.isEmpty <;> cases child
  · simp [childBytes, FieldCodec.record, ValueCodec.string, pure, Except.pure, bind, Except.bind]
  · simp [childBytes, FieldCodec.record, ValueCodec.string, childCodec, pure, Except.pure, bind, Except.bind]
  · rfl
  · simp [childBytes, FieldCodec.record, childCodec, pure, Except.pure, bind, Except.bind]

theorem pieces_of_child {k : Nat} {p : Part}
    (carries : ∀ c, p.child = some c → (childCodec k).Carries depth c c)
    (short : p.bytes.length < 4294967296) :
    Pieces (codecTo k).readRecord depth p.bytes.length base p.bytes p := by
  have delivers : MessageCodec.Delivers depth p (codecTo k).fields (codecTo k).base p := by
    obtain ⟨sku, child⟩ := p
    rw [fields_codecTo, base_codecTo]
    refine .cons (FieldCodec.delivers_value (fun empty => ?_) (ValueCodec.carries_string depth sku))
      (.cons (FieldCodec.delivers_optional (fun absent => ?_) fun c present => ?_) (.nil _))
    · rw [String.isEmpty_iff.1 empty]
      rfl
    · cases absent
      rfl
    · cases present
      exact ⟨c, carries c rfl, rfl⟩
  obtain ⟨records, writes, pieces⟩ := MessageCodec.pieces_of_records (numbered k) delivers
  have content : records.flatten = p.bytes := by
    have write := write_codecTo k p
    rw [MessageCodec.write, writes] at write
    exact Except.ok.inj write
  rw [content, base_codecTo] at pieces
  rw [← content] at short
  exact pieces (MessageCodec.short_of_flatten short)

theorem pieces_bytes {k : Nat} {p : Part} (low : p.height ≤ k + 1) (shallow : depth + p.height ≤ 101)
    (short : p.bytes.length < 4294967296) :
    Pieces (codecTo k).readRecord depth p.bytes.length base p.bytes p := by
  -- A child is one part lower, one level deeper, and read by a codec of one level less.
  induction k generalizing depth p with
  | zero =>
    refine pieces_of_child (fun c child => ?_) short
    have := height_child child
    have := height_pos c
    omega
  | succ k ih =>
    refine pieces_of_child (fun c child => ⟨_, rfl, fun framed => ?_⟩) short
    have higher := height_child child
    have positive := height_pos c
    rw [Wire.Bytes.delimited, List.length_append] at framed
    refine MessageCodec.takes_message (c := codecTo k) (by rw [Wire.recursionLimit]; omega) (by omega) ?_
    rw [base_codecTo]
    exact ih (by omega) (by omega) (by omega)

theorem carries_codec {p : Part} (low : depth + p.height ≤ 100) :
    (ValueCodec.message codec).Carries depth p p := by
  have positive := height_pos p
  refine ⟨Wire.Bytes.delimited p.bytes, ?_, fun framed => ?_⟩
  · simp only [ValueCodec.message, codec, write_codecTo]
    rfl
  · rw [Wire.Bytes.delimited, List.length_append] at framed
    refine MessageCodec.takes_message (by rw [Wire.recursionLimit]; omega) (by omega) ?_
    rw [codec, base_codecTo]
    exact pieces_bytes (by rw [Wire.recursionLimit]; omega) (by omega) (by omega)

def Compact (n : Nat) (p : Part) : Prop :=
  n < 1073741824 → p.bytes.length ≤ 3 * n

theorem length_skuBytes_le {sku : String} {n : Nat} (short : sku.utf8ByteSize ≤ n)
    (small : n < 34359738368) : (skuBytes sku).length ≤ n + 6 := by
  have front : (varintBytes (FieldCodec.tag 1 .delimited)).length ≤ 1 :=
    Wire.length_varintBytes_le (by decide) (by decide)
  have back := ValueCodec.bounded_string short small _ rfl
  rw [skuBytes]
  split
  · exact Nat.zero_le _
  · rw [List.length_append]
    omega

theorem length_childBytes_le {c : Part} {n : Nat} (short : c.bytes.length ≤ n)
    (small : n < 34359738368) : (childBytes (some c)).length ≤ n + 6 := by
  have front : (varintBytes (FieldCodec.tag 2 .delimited)).length ≤ 1 :=
    Wire.length_varintBytes_le (by decide) (by decide)
  have back := length_delimited_le short small
  rw [childBytes, List.length_append]
  omega

theorem bounded_codec {p : Part} {n : Nat} (compact : p.Compact n) (small : n < 1073741824) :
    (ValueCodec.message codec).Bounded p (3 * n + 5) := by
  intro bytes write
  simp only [ValueCodec.message, codec, write_codecTo] at write
  cases write
  exact length_delimited_le (compact small) (by omega)

-- What reading the records of a part keeps true of it.
structure Readable (depth : Nat) (n : Nat) (p : Part) : Prop where
  shallow : ∀ c, p.child = some c → depth + c.height ≤ 100
  compact : p.Compact n

theorem keeps_readable {k : Nat} (child : Ensures (childCodec k).read depth fun bytes c =>
      depth + c.height ≤ 100 ∧ ∃ n, n + 1 ≤ bytes.length ∧ c.Compact n) :
    (codecTo k).Keeps depth (Readable depth) where
  more fewer readable := ⟨readable.shallow, fun few => by have := readable.compact (by omega); omega⟩
  field := by
    simp only [fields_codecTo, List.forall_mem_cons]
    refine ⟨?_, ?_, by simp⟩
    · rintro tag n p ⟨shallow, compact⟩
      refine (Wire.Read.ensures_string depth).map _ ?_
      rintro bytes sku ⟨-, long⟩
      refine ⟨shallow, fun few => ?_⟩
      have old := compact (by omega)
      have new := length_skuBytes_le (Nat.le_refl sku.utf8ByteSize) (by omega)
      rw [bytes_eq, List.length_append] at old ⊢
      dsimp only
      omega
    · rintro tag n p ⟨-, compact⟩
      refine child.map _ ?_
      rintro bytes c ⟨shallow, m, long, content⟩
      refine ⟨?_, fun few => ?_⟩
      · rintro _ ⟨⟩
        exact shallow
      · have old := compact (by omega)
        have new := length_childBytes_le (content (by omega)) (by omega)
        rw [bytes_eq, List.length_append] at old ⊢
        dsimp only
        omega

theorem ensures_of_child {k : Nat} (child : Ensures (childCodec k).read (depth + 1) fun bytes c =>
      depth + 1 + c.height ≤ 100 ∧ ∃ n, n + 1 ≤ bytes.length ∧ c.Compact n) :
    Ensures (ValueCodec.message (codecTo k)).read depth fun bytes p =>
      depth + p.height ≤ 100 ∧ ∃ n, n + 1 ≤ bytes.length ∧ p.Compact n := by
  have start : Readable (depth + 1) 0 (codecTo k).base := by
    rw [base_codecTo]
    exact ⟨nofun, fun _ => by decide⟩
  refine (MessageCodec.ensures_message (local_codecTo k) (keeps_readable child) start).weaken ?_
  rintro bytes p ⟨entered, n, long, readable⟩
  refine ⟨?_, n, long, readable.compact⟩
  obtain ⟨sku, child⟩ := p
  cases child with
  | none =>
    rw [Wire.recursionLimit] at entered
    rw [height]
    omega
  | some c =>
    have := readable.shallow c rfl
    rw [height]
    omega

theorem ensures_codecTo (k depth : Nat) :
    Ensures (ValueCodec.message (codecTo k)).read depth fun bytes p =>
      depth + p.height ≤ 100 ∧ ∃ n, n + 1 ≤ bytes.length ∧ p.Compact n := by
  -- Where no level is left, no child is read, so what was read is as high as the levels used up.
  induction k generalizing depth with
  | zero =>
    refine ensures_of_child ((Wire.Read.ensures_length _).bind fun _ _ _ => ?_)
    exact (Ensures.throw _).nested.weaken fun _ _ holds => holds.2
  | succ k ih => exact ensures_of_child (ih (depth + 1))

end Protogen.Shop.Part
