import Protogen.Proofs.Wire.Acceptance

set_option autoImplicit false

namespace Protogen.Wire.Read

variable {r r' : Reader} {n v : Nat} {front rest : List UInt8}

theorem left_of_split (split : r.remaining = front ++ rest) (nonempty : 0 < front.length) :
    r.index + front.length + rest.length = r.data.size := by
  have total := congrArg List.length split
  rw [Reader.length_remaining, List.length_append] at total
  omega

theorem endOf_eq_error (short : r.data.size < r.index + n) : endOf (some n) r = .error (.lengthOverflow n) r := by
  simp only [endOf, Nat.not_le.2 short, if_false]

theorem length_of_number (split : r.remaining = front ++ rest) (number : Varint 0 front v) :
    length r = if v % 4294967296 ≤ rest.length then .ok (v % 4294967296) (r.advance front.length)
      else .error (.lengthOverflow (v % 4294967296)) (r.advance front.length) := by
  have total := left_of_split split (length_number_pos number)
  have here : r.At r.depth front := ⟨rfl, by omega, rest, split.symm⟩
  split
  next room => exact length_ok (takes_number number) here (by omega)
  next room =>
    have short : (r.advance front.length).data.size < (r.advance front.length).index + v % 4294967296 := by
      rw [Reader.advance_data, Reader.advance_index]
      omega
    rw [length, bind_of_ok (takes_number number r here)]
    change EStateM.bind _ _ _ = _
    simp only [EStateM.bind, endOf_eq_error short]

theorem number_of_length (success : length r = .ok n r') :
    ∃ front rest v, r.remaining = front ++ rest ∧ Varint 0 front v ∧ n = v % 4294967296 := by
  obtain ⟨front, here, -, v, number, same⟩ :=
    ensures_length_of r.depth r n r' rfl (inside_of_length success) success
  obtain ⟨rest, split⟩ := here.front
  exact ⟨front, rest, v, split.symm, number, same⟩

theorem length_eq_ok_iff : length r = .ok n r' ↔ ∃ front rest v, r.remaining = front ++ rest ∧
    Varint 0 front v ∧ n = v % 4294967296 ∧ n ≤ rest.length ∧ r' = r.advance front.length := by
  constructor
  next =>
    intro success
    obtain ⟨front, rest, v, split, number, rfl⟩ := number_of_length success
    rw [length_of_number split number] at success
    split at success
    next room =>
      cases success
      exact ⟨front, rest, v, split, number, rfl, room, rfl⟩
    next => cases success
  next =>
    rintro ⟨front, rest, v, split, number, rfl, room, rfl⟩
    rw [length_of_number split number, if_pos room]

/-- A length that is read is the lowest 32 bits of the number in front, and that many bytes follow. A number of no
more bits is the length itself, and is refused where it exceeds what follows. Any other is refused if and only if its
lowest 32 bits exceed it. -/
theorem length_announced (r : Reader) :
    (∀ n r', length r = .ok n r' ↔ ∃ front rest v, r.remaining = front ++ rest ∧ Varint 0 front v ∧
      n = v % 4294967296 ∧ n ≤ rest.length ∧ r' = r.advance front.length) ∧
    (∀ front rest v, r.remaining = front ++ rest → Varint 0 front v → v < 4294967296 →
      length r = if v ≤ rest.length then .ok v (r.advance front.length)
        else .error (.lengthOverflow v) (r.advance front.length)) ∧
    ∀ front rest v, r.remaining = front ++ rest → Varint 0 front v →
      ((∃ e r', length r = .error e r') ↔ rest.length < v % 4294967296) := by
  refine ⟨fun n r' => length_eq_ok_iff, fun front rest v split number small => ?_,
    fun front rest v split number => ?_⟩
  · have announced := length_of_number split number
    rwa [Nat.mod_eq_of_lt small] at announced
  · rw [length_of_number split number, ← Nat.not_le]
    split
    next room => simp [room]
    next room => simp [room]

-- Three bytes are announced, and two follow.
theorem length_announced_three :
    (Reader.ofBytes ⟨#[0x03, 0x07, 0x07]⟩).remaining = [0x03] ++ [0x07, 0x07] ∧ Varint 0 [0x03] 3 ∧ 3 < 4294967296 ∧
      length (.ofBytes ⟨#[0x03, 0x07, 0x07]⟩) =
        .error (.lengthOverflow 3) ((Reader.ofBytes ⟨#[0x03, 0x07, 0x07]⟩).advance 1) := by
  have split : (Reader.ofBytes ⟨#[0x03, 0x07, 0x07]⟩).remaining = [0x03] ++ [0x07, 0x07] := rfl
  have three : Varint 0 [0x03] 3 := .last (by decide) (by decide) (by decide)
  exact ⟨split, three, by decide, (length_announced _).2.1 _ _ 3 split three (by decide)⟩

theorem varint_wide : Varint 0 [0x80, 0x80, 0x80, 0x80, 0x10] 4294967296 :=
  .more (by decide) (by decide) <| .more (by decide) (by decide) <| .more (by decide) (by decide) <|
    .more (by decide) (by decide) <| .last (by decide) (by decide) (by decide)

/-- A length need not be the number that is announced, and an announcement of what is not there need not be refused. -/
theorem length_underread :
    (¬∀ (r r' : Reader) (n : Nat), length r = .ok n r' →
      ∃ front rest, r.remaining = front ++ rest ∧ Varint 0 front n ∧ n ≤ rest.length) ∧
    ¬∀ (r : Reader) (front rest : List UInt8) (v : Nat), r.remaining = front ++ rest → Varint 0 front v →
      rest.length < v → ∃ r', length r = .error (.lengthOverflow v) r' := by
  have split : (Reader.ofBytes ⟨#[0x80, 0x80, 0x80, 0x80, 0x10]⟩).remaining =
    [0x80, 0x80, 0x80, 0x80, 0x10] ++ [] := rfl
  have accepted := length_of_number split varint_wide
  constructor
  next =>
    intro always
    obtain ⟨front, rest, split', number, -⟩ := always _ _ 0 accepted
    -- Only one number stands in front of a buffer, and it is not zero.
    have here : (Reader.ofBytes ⟨#[0x80, 0x80, 0x80, 0x80, 0x10]⟩).At 0 front :=
      ⟨rfl, Nat.zero_le _, rest, split'.symm⟩
    have there : (Reader.ofBytes ⟨#[0x80, 0x80, 0x80, 0x80, 0x10]⟩).At 0 [0x80, 0x80, 0x80, 0x80, 0x10] :=
      ⟨rfl, Nat.zero_le _, [], split.symm⟩
    have same := ((takes_number number).unique (takes_number varint_wide) here there).2
    omega
  next =>
    intro always
    obtain ⟨r', refused⟩ := always _ _ _ _ split varint_wide (by decide)
    rw [accepted] at refused
    cases refused

end Protogen.Wire.Read
