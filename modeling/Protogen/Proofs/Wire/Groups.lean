import Protogen.Proofs.Wire.Acceptance

set_option autoImplicit false

namespace Protogen.Wire

def groupSum (bytes : List UInt8) : Nat :=
  ∑ i : Fin bytes.length, bytes[i].toNat % 128 * 2 ^ (7 * i.val)

-- A number of the buffer, and a number too long for a word, are told apart by the byte behind those that go on.
structure Terminated (front : List UInt8) (b : UInt8) : Prop where
  goes : ∀ c ∈ front, 128 ≤ c
  ends : b < 128
  groups : front.length ≤ 9
  fits : front.length = 9 → b ≤ 1

structure Overlong (front : List UInt8) (b : UInt8) : Prop where
  goes : ∀ c ∈ front, 128 ≤ c
  groups : front.length = 9
  wide : 1 < b

@[simp] theorem groupSum_nil : groupSum [] = 0 := rfl

theorem groupSum_cons (b : UInt8) (bytes : List UInt8) :
    groupSum (b :: bytes) = b.toNat % 128 + 128 * groupSum bytes := by
  have split : groupSum (b :: bytes) = b.toNat % 128 * 2 ^ (7 * 0) +
      ∑ i : Fin bytes.length, bytes[i].toNat % 128 * 2 ^ (7 * (i.val + 1)) :=
    Fin.sum_univ_succ fun i : Fin (bytes.length + 1) => (b :: bytes)[i].toNat % 128 * 2 ^ (7 * i.val)
  rw [split, groupSum, Finset.mul_sum, Nat.mul_zero, Nat.pow_zero, Nat.mul_one]
  congr 1
  refine Finset.sum_congr rfl fun i _ => ?_
  rw [Nat.mul_add, Nat.pow_add]
  ring

theorem groupSum_snoc (bytes : List UInt8) (b : UInt8) :
    groupSum (bytes ++ [b]) = groupSum bytes + b.toNat % 128 * 128 ^ bytes.length := by
  induction bytes with
  | nil => simp [groupSum_cons]
  | cons c bytes ih =>
    rw [List.cons_append, groupSum_cons, groupSum_cons, ih, List.length_cons, Nat.pow_succ]
    ring

theorem groupSum_lt (bytes : List UInt8) : groupSum bytes < 128 ^ bytes.length := by
  induction bytes with
  | nil => decide
  | cons b bytes ih =>
    have group := Nat.mod_lt b.toNat (by decide : 0 < 128)
    rw [groupSum_cons, List.length_cons, Nat.pow_succ]
    omega

theorem testBit_groupSum (bytes : List UInt8) (i : Fin bytes.length) {j : Nat} (inner : j < 7) :
    (groupSum bytes).testBit (7 * i + j) = bytes[i].toNat.testBit j := by
  induction bytes with
  | nil => exact i.elim0
  | cons b bytes ih =>
    have group : b.toNat % 2 ^ 7 < 2 ^ 7 := Nat.mod_lt _ (by decide)
    have sum : groupSum (b :: bytes) = 2 ^ 7 * groupSum bytes + b.toNat % 2 ^ 7 := by
      rw [groupSum_cons]
      exact Nat.add_comm ..
    rw [sum, Nat.testBit_two_pow_mul_add _ group]
    cases i using Fin.cases with
    | zero =>
      have low : 7 * ((0 : Fin (bytes.length + 1)) : Nat) + j = j := by simp
      rw [low, if_pos inner, Nat.testBit_mod_two_pow]
      simp [inner]
    | succ i =>
      have high : 7 * (i.succ : Nat) + j = 7 * (i : Nat) + j + 7 := by
        rw [Fin.val_succ]
        ring
      rw [high, if_neg (by omega), Nat.add_sub_cancel, ih i]
      rfl

theorem Terminated.word {front : List UInt8} {b : UInt8} (terminated : Terminated front b) :
    groupSum (front ++ [b]) < 18446744073709551616 := by
  have fits : ¬(front.length = 9 ∧ 1 < b) := fun wide => UInt8.not_lt.2 (terminated.fits wide.1) wide.2
  rw [groupSum_snoc]
  exact (Read.value_bounds terminated.groups (groupSum_lt front) fits).2

-- Where no number and no overlong one stands in front, the bytes come to an end too soon.
theorem unended {front bytes : List UInt8} (goes : ∀ c ∈ front, 128 ≤ c) (groups : front.length ≤ 9)
    (none : ¬∃ front' b rest, front ++ bytes = front' ++ b :: rest ∧ (Terminated front' b ∨ Overlong front' b)) :
    (front ++ bytes).length ≤ 9 ∧ ∀ c ∈ front ++ bytes, 128 ≤ c := by
  induction bytes generalizing front with
  | nil =>
    rw [List.append_nil]
    exact ⟨groups, goes⟩
  | cons b bytes ih =>
    have fits (word : ¬(front.length = 9 ∧ 1 < b)) (last : front.length = 9) : b ≤ 1 :=
      UInt8.not_lt.1 fun less => word ⟨last, less⟩
    by_cases wide : front.length = 9 ∧ 1 < b
    next => exact absurd ⟨front, b, bytes, rfl, .inr ⟨goes, wide.1, wide.2⟩⟩ none
    next =>
      by_cases ends : b < 128
      next => exact absurd ⟨front, b, bytes, rfl, .inl ⟨goes, ends, groups, fits wide⟩⟩ none
      next =>
        have high : 128 ≤ b := UInt8.not_lt.1 ends
        have early : front.length ≠ 9 := fun last =>
          UInt8.not_lt.2 (fits wide last) (UInt8.lt_of_lt_of_le (by decide) high)
        have longer : ∀ c ∈ front ++ [b], 128 ≤ c :=
          List.forall_mem_append.2 ⟨goes, List.forall_mem_singleton.2 high⟩
        have whole : front ++ b :: bytes = front ++ [b] ++ bytes := List.append_cons ..
        have room : (front ++ [b]).length ≤ 9 := by
          rw [List.length_append, List.length_singleton]
          omega
        rw [whole] at none ⊢
        exact ih longer room none

namespace Read

variable {r : Reader} {front rest : List UInt8} {b : UInt8}

theorem byte_of_split (split : r.remaining = b :: rest) : byte r = .ok b (r.advance 1) := by
  have front : [b] <+: r.remaining := ⟨rest, split.symm⟩
  exact takes_byte r.depth b r ⟨rfl, inside_of_front (by simp) front, front⟩

theorem byte_of_none (none : r.remaining = []) : byte r = .error .truncated r := by
  have left := congrArg List.length none
  rw [Reader.length_remaining, List.length_nil] at left
  have past : ¬r.index < r.data.size := by omega
  simp only [byte, past, dif_neg, not_false_eq_true]

theorem varintFrom_past (position value fuel : Nat) (split : r.remaining = front ++ rest)
    (goes : ∀ c ∈ front, 128 ≤ c) (early : position + front.length ≤ 9) :
    varintFrom position value (front.length + fuel) r =
      varintFrom (position + front.length) (value + groupSum front * 128 ^ position) fuel
        (r.advance front.length) := by
  induction front generalizing r position value with
  | nil =>
    rw [List.length_nil, Nat.zero_add, groupSum_nil, Nat.zero_mul]
    rfl
  | cons b front ih =>
    have more : ¬b < 128 := UInt8.not_lt.2 (goes b (List.mem_cons_self ..))
    rw [List.length_cons] at early ⊢
    have fits : ¬(position = 9 ∧ 1 < b) := by omega
    have behind : (r.advance 1).remaining = front ++ rest := by
      rw [Reader.remaining_advance, split]
      rfl
    have later := ih (position + 1) (value + b.toNat % 128 * 128 ^ position) behind
      (fun c member => goes c (List.mem_cons_of_mem _ member)) (by omega)
    have total : value + b.toNat % 128 * 128 ^ position + groupSum front * 128 ^ (position + 1) =
        value + groupSum (b :: front) * 128 ^ position := by
      rw [groupSum_cons, Nat.pow_succ]
      ring
    rw [total, Reader.advance_advance] at later
    have count : front.length + 1 + fuel = front.length + fuel + 1 := by omega
    rw [count, varintFrom, bind_of_ok (byte_of_split split), if_neg fits]
    simp only [more, if_false, pow_seven, later, Nat.add_assoc, Nat.add_comm 1]

theorem varint_of_terminated (split : r.remaining = front ++ b :: rest) (terminated : Terminated front b) :
    varint r = .ok (groupSum (front ++ [b])) (r.advance (front.length + 1)) := by
  obtain ⟨goes, ends, groups, fits⟩ := terminated
  have past := varintFrom_past 0 0 (9 - front.length + 1) split goes (by omega)
  have fuel : front.length + (9 - front.length + 1) = 10 := by omega
  have behind : (r.advance front.length).remaining = b :: rest := by
    rw [Reader.remaining_advance, split, List.drop_left]
  have word : ¬(0 + front.length = 9 ∧ 1 < b) := fun wide => UInt8.not_lt.2 (fits (by omega)) wide.2
  rw [fuel] at past
  rw [varint, past, varintFrom, bind_of_ok (byte_of_split behind), if_neg word, groupSum_snoc]
  simp only [ends, if_true, pow_seven, Nat.zero_add, Nat.pow_zero, Nat.mul_one, Reader.advance_advance]
  rfl

theorem varint_of_overlong (split : r.remaining = front ++ b :: rest) (overlong : Overlong front b) :
    varint r = .error .invalidVarint (r.advance 10) := by
  obtain ⟨goes, groups, wide⟩ := overlong
  have past := varintFrom_past 0 0 1 split goes (by omega)
  have behind : (r.advance front.length).remaining = b :: rest := by
    rw [Reader.remaining_advance, split, List.drop_left]
  rw [groups] at past behind
  rw [varint, past, varintFrom, bind_of_ok (byte_of_split behind), if_pos ⟨rfl, wide⟩]
  rfl

theorem varint_of_unended (short : r.remaining.length ≤ 9) (goes : ∀ c ∈ r.remaining, 128 ≤ c) :
    varint r = .error .truncated (r.advance r.remaining.length) := by
  have past := varintFrom_past 0 0 (9 - r.remaining.length + 1)
    (List.append_nil r.remaining).symm goes (by omega)
  have fuel : r.remaining.length + (9 - r.remaining.length + 1) = 10 := by omega
  have behind : (r.advance r.remaining.length).remaining = [] := by
    rw [Reader.remaining_advance, List.drop_length]
  rw [fuel] at past
  rw [varint, past, varintFrom]
  change EStateM.bind _ _ _ = _
  simp only [EStateM.bind, byte_of_none behind]

/-- A number that ends within ten bytes, the tenth at most 1, is the sum of its groups. It is a word in which each bit
of each group has its place, and it is taken as a whole. Nine bytes that go on and a tenth above 1 are refused as no
number. Anything else is the end of the buffer in the middle of a number. -/
theorem varint_exact (r : Reader) :
    (∀ front b rest, r.remaining = front ++ b :: rest → Terminated front b →
      varint r = .ok (groupSum (front ++ [b])) (r.advance (front.length + 1)) ∧
        groupSum (front ++ [b]) < 18446744073709551616 ∧
        ∀ (i : Fin (front ++ [b]).length) (j : Nat), j < 7 →
          (groupSum (front ++ [b])).testBit (7 * i + j) = (front ++ [b])[i].toNat.testBit j) ∧
    (∀ front b rest, r.remaining = front ++ b :: rest → Overlong front b →
      varint r = .error .invalidVarint (r.advance 10)) ∧
    ((¬∃ front b rest, r.remaining = front ++ b :: rest ∧ (Terminated front b ∨ Overlong front b)) →
      (r.remaining.length ≤ 9 ∧ ∀ c ∈ r.remaining, 128 ≤ c) ∧
        varint r = .error .truncated (r.advance r.remaining.length)) := by
  refine ⟨fun front b rest split terminated => ?_, fun front b rest split overlong => ?_, fun none => ?_⟩
  · exact ⟨varint_of_terminated split terminated, terminated.word, fun i _ inner => testBit_groupSum _ i inner⟩
  · exact varint_of_overlong split overlong
  · have ended : ([] ++ r.remaining).length ≤ 9 ∧ ∀ c ∈ [] ++ r.remaining, 128 ≤ c :=
      unended nofun (Nat.zero_le 9) none
    exact ⟨ended, varint_of_unended ended.1 ended.2⟩

-- Nine bytes of ones, and behind them the highest bit of a word, a bit too many, and nothing.
theorem varint_exact_ones :
    Terminated (List.replicate 9 0xff) 1 ∧ groupSum (List.replicate 9 0xff ++ [1]) = 18446744073709551615 ∧
      varint (Reader.holding 0 (List.replicate 9 0xff ++ [1])) =
        .ok 18446744073709551615 ((Reader.holding 0 (List.replicate 9 0xff ++ [1])).advance 10) ∧
    Overlong (List.replicate 9 0xff) 2 ∧
      varint (Reader.holding 0 (List.replicate 9 0xff ++ [2])) =
        .error .invalidVarint ((Reader.holding 0 (List.replicate 9 0xff ++ [2])).advance 10) ∧
    varint (Reader.holding 0 (List.replicate 9 0xff)) =
      .error .truncated ((Reader.holding 0 (List.replicate 9 0xff)).advance 9) := by
  have goes : ∀ c ∈ List.replicate 9 (0xff : UInt8), 128 ≤ c := by
    intro c member
    rw [List.eq_of_mem_replicate member]
    decide
  have terminated : Terminated (List.replicate 9 0xff) 1 := ⟨goes, by decide, by decide, by decide⟩
  have overlong : Overlong (List.replicate 9 0xff) 2 := ⟨goes, rfl, by decide⟩
  have sum : groupSum (List.replicate 9 0xff ++ [1]) = 18446744073709551615 := by
    simp [List.replicate, groupSum_cons]
  have unended : ¬∃ front b rest, (Reader.holding 0 (List.replicate 9 0xff)).remaining = front ++ b :: rest ∧
      (Terminated front b ∨ Overlong front b) := by
    rintro ⟨front, b, rest, split, ended⟩
    rw [Reader.remaining_holding] at split
    have high : 128 ≤ b := goes b (by rw [split]; simp)
    rcases ended with terminated | overlong
    next => exact UInt8.not_lt.2 high terminated.ends
    next =>
      have lengths := congrArg List.length split
      rw [List.length_append, List.length_cons, List.length_replicate, overlong.groups] at lengths
      omega
  have word := (varint_exact (Reader.holding 0 (List.replicate 9 0xff ++ [1]))).1 _ _ [] rfl terminated
  have wide := (varint_exact (Reader.holding 0 (List.replicate 9 0xff ++ [2]))).2.1 _ _ [] rfl overlong
  have short := (varint_exact (Reader.holding 0 (List.replicate 9 0xff))).2.2 unended
  rw [sum] at word
  exact ⟨terminated, sum, word.1, overlong, wide, short.2⟩

end Read

end Protogen.Wire
