import Protogen.Proofs.Wire.Acceptance

set_option autoImplicit false

namespace Protogen.Wire

-- Groups in a record may be as deep as a reader at the top follows them.
def IsRecord (bytes : List UInt8) : Prop :=
  ∃ field, CompleteRecord recursionLimit field bytes

-- So many bytes are the first of the records, or none of them, or all.
def EndsAt (records : List (List UInt8)) (n : Nat) : Prop :=
  ∃ front back, records = front ++ back ∧ front.flatten.length = n

/-- The position lies between records, or at an end of them. -/
def Boundary (bytes : List UInt8) (n : Nat) : Prop :=
  ∃ front back : List (List UInt8), (∀ record ∈ front ++ back, IsRecord record) ∧
    bytes = (front ++ back).flatten ∧ front.flatten.length = n

theorem Read.takes_record {levels depth field : Nat} {bytes : List UInt8}
    (complete : CompleteRecord levels field bytes) (shallow : depth + levels ≤ recursionLimit) :
    Takes (tag >>= skip) depth bytes () := by
  cases complete with
  | mk number value => exact (takes_tag_of number).bind (takes_skip value shallow)

theorem endsAt_zero (records : List (List UInt8)) : EndsAt records 0 :=
  ⟨[], records, rfl, rfl⟩

theorem endsAt_length (records : List (List UInt8)) : EndsAt records records.flatten.length :=
  ⟨records, [], (List.append_nil records).symm, rfl⟩

theorem endsAt_cons_iff {record : List UInt8} {records : List (List UInt8)} {n : Nat} (some : 0 < n) :
    EndsAt (record :: records) n ↔ record.length ≤ n ∧ EndsAt records (n - record.length) := by
  constructor
  next =>
    rintro ⟨front, back, split, place⟩
    cases front with
    | nil =>
      rw [List.flatten_nil, List.length_nil] at place
      omega
    | cons record' front =>
      obtain ⟨rfl, rest⟩ := List.cons.inj split
      rw [List.flatten_cons, List.length_append] at place
      exact ⟨by omega, front, back, rest, by omega⟩
  next =>
    rintro ⟨long, front, back, rfl, place⟩
    refine ⟨record :: front, back, rfl, ?_⟩
    rw [List.flatten_cons, List.length_append]
    omega

namespace IsRecord

variable {bytes bytes' more more' : List UInt8}

-- A short run of bytes with its length in front, of one of the first fields.
theorem delimited {tag length : UInt8} (single : tag < 128) (type : tag.toNat % 8 = WireType.delimited.number)
    (short : length < 128) (size : bytes.length = length.toNat) : IsRecord (tag :: length :: bytes) := by
  have whole : ∀ b : UInt8, b.toNat % 4294967296 = b.toNat := fun b =>
    Nat.mod_eq_of_lt (Nat.lt_trans b.toNat_lt (by decide))
  have early : (0 : Nat) = 9 → tag ≤ 1 := fun last => absurd last (by decide)
  have early' : (0 : Nat) = 9 → length ≤ 1 := fun last => absurd last (by decide)
  refine ⟨_, .mk (.last single (by decide) early) (.delimited ?_ (.last short (by decide) early') ?_)⟩
  · rw [whole tag]
    exact type
  · rw [whole length]
    exact size

theorem length_pos (record : IsRecord bytes) : 0 < bytes.length := by
  obtain ⟨field, complete⟩ := record
  cases complete with
  | mk number value =>
    have positive := Read.length_number_pos number
    rw [List.length_append]
    omega

theorem unique (record : IsRecord bytes) (record' : IsRecord bytes') (same : bytes ++ more = bytes' ++ more') :
    bytes = bytes' := by
  obtain ⟨field, complete⟩ := record
  obtain ⟨field', complete'⟩ := record'
  have takes := Read.takes_record complete (Nat.zero_add _).le
  have takes' := Read.takes_record complete' (Nat.zero_add _).le
  exact (takes.unique_front takes' (List.prefix_append bytes more) (same ▸ List.prefix_append bytes' more')).1

end IsRecord

theorem records_unique {records records' : List (List UInt8)} (complete : ∀ record ∈ records, IsRecord record)
    (complete' : ∀ record ∈ records', IsRecord record) (same : records.flatten = records'.flatten) :
    records = records' := by
  induction records generalizing records' with
  | nil =>
    cases records' with
    | nil => rfl
    | cons record' rest' =>
      have positive := (complete' record' (List.mem_cons_self ..)).length_pos
      have lengths := congrArg List.length same
      rw [List.flatten_cons, List.length_append, List.flatten_nil, List.length_nil] at lengths
      omega
  | cons record rest ih =>
    have positive := (complete record (List.mem_cons_self ..)).length_pos
    cases records' with
    | nil =>
      have lengths := congrArg List.length same
      rw [List.flatten_cons, List.length_append, List.flatten_nil, List.length_nil] at lengths
      omega
    | cons record' rest' =>
      rw [List.flatten_cons, List.flatten_cons] at same
      obtain rfl := (complete record (List.mem_cons_self ..)).unique (complete' record' (List.mem_cons_self ..)) same
      have others := ih (fun other member => complete other (List.mem_cons_of_mem _ member))
        (fun other member => complete' other (List.mem_cons_of_mem _ member)) (List.append_cancel_left same)
      rw [others]

theorem boundary_flatten_iff {records : List (List UInt8)} {n : Nat} (complete : ∀ record ∈ records, IsRecord record) :
    Boundary records.flatten n ↔ EndsAt records n := by
  constructor
  next =>
    rintro ⟨front, back, complete', same, place⟩
    exact ⟨front, back, records_unique complete complete' same, place⟩
  next =>
    rintro ⟨front, back, rfl, place⟩
    exact ⟨front, back, complete, rfl, place⟩

end Protogen.Wire
