import Mathlib
import Protogen.Number.Integer
import Protogen.Proofs.Text.Trim

set_option autoImplicit false

namespace Protogen.Number

theorem isDigit_eq (c : Char) : isDigit c = c.isDigit := by
  simp only [isDigit, Char.isDigit, Char.le_def]

theorem isDigit_of_mem_natText {c : Char} {n : Nat} (member : c ∈ natText n) : isDigit c = true := by
  rw [isDigit_eq]
  exact Nat.isDigit_of_mem_toDigits (by decide) (by decide) member

theorem natText_ne_nil (n : Nat) : natText n ≠ [] :=
  Nat.toDigits_ne_nil

theorem ofDigits_natText (n : Nat) : ofDigits (natText n) = n :=
  Nat.ofDigitChars_ten_toDigits

theorem readDigits?_natText (n : Nat) : readDigits? (natText n) = some n := by
  have nonempty : (natText n).isEmpty = false := List.isEmpty_eq_false_iff.2 (natText_ne_nil n)
  have digits : (natText n).all isDigit = true :=
    List.all_eq_true.2 fun _ member => isDigit_of_mem_natText member
  simp [readDigits?, nonempty, digits, ofDigits_natText]

theorem readSigned_of_digits {cs : List Char} (digits : ∀ c ∈ cs, isDigit c = true) :
    readInt? cs = (readDigits? cs).map (fun n => (n : Int)) ∧ readNat? cs = readDigits? cs := by
  cases cs with
  | nil => exact ⟨rfl, rfl⟩
  | cons c cs =>
    have digit := digits c (List.mem_cons_self ..)
    have minus : c ≠ '-' := by
      rintro rfl
      exact absurd digit (by decide)
    have plus : c ≠ '+' := by
      rintro rfl
      exact absurd digit (by decide)
    constructor
    · unfold readInt?
      split <;> simp_all
    · unfold readNat?
      split <;> simp_all

theorem readInt?_intText (i : Int) : readInt? (intText i) = some i := by
  by_cases negative : i < 0
  · have value : -(i.natAbs : Int) = i := by omega
    rw [intText, if_pos negative, readInt?, readDigits?_natText]
    exact congrArg some value
  · have value : (i.natAbs : Int) = i := by omega
    rw [intText, if_neg negative,
      (readSigned_of_digits fun _ member => isDigit_of_mem_natText member).1, readDigits?_natText]
    exact congrArg some value

theorem readNat?_natText (n : Nat) : readNat? (natText n) = some n := by
  rw [(readSigned_of_digits fun _ member => isDigit_of_mem_natText member).2, readDigits?_natText]

namespace Range

theorem contains_iff {r : Range} {i : Int} : r.contains i = true ↔ r.lo ≤ i ∧ i < r.hi := by
  simp only [contains, Bool.and_eq_true, decide_eq_true_eq]

theorem read?_intText {r : Range} {i : Int} (inside : r.contains i = true) :
    r.read? (intText i) = some i := by
  by_cases signed : r.lo < 0
  · simp only [read?, signed, if_true, readInt?_intText, Option.filter_some, inside]
  · have bounds := contains_iff.1 inside
    have natural : ¬i < 0 := by omega
    have value : ((i.natAbs : Nat) : Int) = i := by omega
    rw [read?, if_neg signed, intText, if_neg natural, readNat?_natText]
    change Option.filter r.contains (some (i.natAbs : Int)) = some i
    rw [value, Option.filter_some, if_pos inside]

end Range

theorem not_isBlank_of_isDigit {c : Char} (digit : isDigit c = true) : Text.isBlank c = false := by
  have bounds : 48 ≤ c.toNat ∧ c.toNat ≤ 57 := by
    simp only [isDigit, Bool.and_eq_true, decide_eq_true_eq] at digit
    exact digit
  simp only [Text.isBlank, Bool.or_eq_false_iff, Bool.and_eq_false_iff, decide_eq_false_iff_not,
    beq_eq_false_iff_ne]
  omega

theorem not_isBlank_of_mem_intText {c : Char} {i : Int} (member : c ∈ intText i) :
    Text.isBlank c = false := by
  by_cases negative : i < 0
  · simp only [intText, negative, if_true, List.mem_cons] at member
    rcases member with rfl | member
    · decide
    · exact not_isBlank_of_isDigit (isDigit_of_mem_natText member)
  · simp only [intText, negative, if_false] at member
    exact not_isBlank_of_isDigit (isDigit_of_mem_natText member)

end Protogen.Number

namespace Protogen.Text

theorem trim_intText (i : Int) : trim (Number.intText i) = Number.intText i :=
  trim_of_none fun _ member => Number.not_isBlank_of_mem_intText member

end Protogen.Text
