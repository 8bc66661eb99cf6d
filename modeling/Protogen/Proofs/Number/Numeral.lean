import Protogen.Proofs.Number.IntegerText

set_option autoImplicit false

namespace Protogen.Number

def digitsValue (digits : List Char) : Nat :=
  Nat.ofDigits 10 (digits.reverse.map fun c => c.toNat - 48)

-- One or more ASCII digits.
structure Digits (cs : List Char) : Prop where
  nonempty : cs ≠ []
  ascii : ∀ c ∈ cs, '0' ≤ c ∧ c ≤ '9'

inductive Numeral : List Char → Int → Prop
  | unsigned {cs : List Char} (digits : Digits cs) : Numeral cs (digitsValue cs)
  | plus {cs : List Char} (digits : Digits cs) : Numeral ('+' :: cs) (digitsValue cs)
  | minus {cs : List Char} (digits : Digits cs) : Numeral ('-' :: cs) (-digitsValue cs)

-- The text is a numeral of the integer, apart from white space at its ends.
def Spells (s : String) (n : Int) : Prop :=
  ∃ front numeral back, s.toList = front ++ (numeral ++ back) ∧ Numeral numeral n ∧
    (∀ c ∈ front, Text.isBlank c = true) ∧ ∀ c ∈ back, Text.isBlank c = true

theorem Digits.isDigit {cs : List Char} (digits : Digits cs) : ∀ c ∈ cs, isDigit c = true :=
  fun c member => by simpa [Number.isDigit] using digits.ascii c member

theorem ofDigits_eq_digitsValue (cs : List Char) : ofDigits cs = digitsValue cs := by
  induction cs using List.reverseRecOn with
  | nil => rfl
  | append_singleton cs c ih =>
    have value : digitsValue (cs ++ [c]) = digitValue c + 10 * digitsValue cs := by
      simp [digitsValue, digitValue, Nat.ofDigits_cons]
    rw [value, ← ih, ofDigits, List.foldl_append, Nat.add_comm]
    rfl

theorem readDigits?_eq_some_iff {cs : List Char} {n : Nat} :
    readDigits? cs = some n ↔ Digits cs ∧ digitsValue cs = n := by
  have shape : (cs.isEmpty || !cs.all isDigit) = false ↔ Digits cs := by
    rw [Bool.or_eq_false_iff, List.isEmpty_eq_false_iff, Bool.not_eq_false', List.all_eq_true]
    constructor
    next =>
      rintro ⟨nonempty, digits⟩
      exact ⟨nonempty, fun c member => by simpa [isDigit] using digits c member⟩
    next => exact fun digits => ⟨digits.nonempty, digits.isDigit⟩
  rw [readDigits?, ← shape, ofDigits_eq_digitsValue]
  cases cs.isEmpty || !cs.all isDigit <;> simp

theorem readInt?_eq_some_iff {cs : List Char} {n : Int} : readInt? cs = some n ↔ Numeral cs n := by
  constructor
  next =>
    intro read
    unfold readInt? at read
    split at read
    next cs =>
      cases value : readDigits? cs <;> rw [value] at read <;> cases read
      obtain ⟨digits, rfl⟩ := readDigits?_eq_some_iff.1 value
      exact .minus digits
    next cs =>
      cases value : readDigits? cs <;> rw [value] at read <;> cases read
      obtain ⟨digits, rfl⟩ := readDigits?_eq_some_iff.1 value
      exact .plus digits
    next =>
      cases value : readDigits? cs <;> rw [value] at read <;> cases read
      obtain ⟨digits, rfl⟩ := readDigits?_eq_some_iff.1 value
      exact .unsigned digits
  next =>
    intro numeral
    cases numeral with
    | unsigned digits =>
      rw [(readSigned_of_digits digits.isDigit).1, readDigits?_eq_some_iff.2 ⟨digits, rfl⟩]
      rfl
    | plus digits | minus digits =>
      rw [readInt?, readDigits?_eq_some_iff.2 ⟨digits, rfl⟩]
      rfl

theorem Numeral.nonempty {cs : List Char} {n : Int} (numeral : Numeral cs n) : cs ≠ [] := by
  cases numeral with
  | unsigned digits => exact digits.nonempty
  | plus | minus => exact List.cons_ne_nil _ _

theorem Numeral.not_isBlank {cs : List Char} {n : Int} (numeral : Numeral cs n) :
    ∀ c ∈ cs, Text.isBlank c = false := by
  cases numeral with
  | unsigned digits => exact fun c member => not_isBlank_of_isDigit (digits.isDigit c member)
  | plus digits | minus digits =>
    refine List.forall_mem_cons.2 ⟨by decide, fun c member => ?_⟩
    exact not_isBlank_of_isDigit (digits.isDigit c member)

end Protogen.Number

namespace Protogen.Text

open Number (Numeral Spells)

theorem readInt?_trim_iff {s : String} {n : Int} : Number.readInt? (trim s.toList) = some n ↔ Spells s n := by
  rw [Number.readInt?_eq_some_iff]
  constructor
  next =>
    intro numeral
    obtain ⟨front, back, split, blank, blank'⟩ := exists_trim s.toList
    exact ⟨front, _, back, split, numeral, blank, blank'⟩
  next =>
    -- The numeral has no white space in it, so that nothing of it goes with what is around it.
    rintro ⟨front, core, back, split, numeral, blank, blank'⟩
    rwa [split, trim_append blank (.of_none numeral.not_isBlank) blank']

end Protogen.Text

namespace Protogen.Number

theorem Spells.unique {s : String} {m n : Int} (first : Spells s m) (second : Spells s n) : m = n :=
  Option.some.inj ((Text.readInt?_trim_iff.2 first).symm.trans (Text.readInt?_trim_iff.2 second))

end Protogen.Number
