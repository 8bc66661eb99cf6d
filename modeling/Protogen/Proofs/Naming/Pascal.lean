import Protogen.Naming.Case

set_option autoImplicit false

namespace Protogen

namespace Text

def Shift.Spares (s : Shift) : Prop :=
  95 < s.run.first + s.delta ∨ s.run.last + s.delta < 95

instance (s : Shift) : Decidable s.Spares :=
  inferInstanceAs (Decidable (_ ∨ _))

def Shift.Misses (s : Shift) (low high : Nat) : Prop :=
  high < s.run.first + s.delta ∨ s.run.last + s.delta < low

instance (s : Shift) (low high : Nat) : Decidable (s.Misses low high) :=
  inferInstanceAs (Decidable (_ ∨ _))

theorem ofNat_outside {low high n : Nat} (positive : 0 < low) (outside : ¬(low ≤ n ∧ n ≤ high)) :
    ¬(low ≤ (Char.ofNat n).toNat ∧ (Char.ofNat n).toNat ≤ high) := by
  by_cases valid : n.isValidChar
  next =>
    rw [Char.ofNat, dif_pos valid]
    exact outside
  next =>
    -- What is no code point becomes the first one.
    rw [Char.ofNat, dif_neg valid]
    intro inside
    exact absurd inside.1 (Nat.not_le.2 positive)

-- No change of case brings in a character of a range that shifts and expansions miss.
theorem mapCase_outside {shifts : List Shift} {expansions : List (Nat × List Nat)} {low high : Nat}
    (positive : 0 < low) (missed : ∀ s ∈ shifts, s.Misses low high)
    (expanded : ∀ e ∈ expansions, ∀ code ∈ e.2, ¬(low ≤ code ∧ code ≤ high)) {c : Char}
    (outside : ¬(low ≤ c.toNat ∧ c.toNat ≤ high)) :
    ∀ x ∈ mapCase shifts expansions c, ¬(low ≤ x.toNat ∧ x.toNat ≤ high) := by
  rw [mapCase]
  split
  next n codes found =>
    rw [List.forall_mem_map]
    exact fun code listed => ofNat_outside positive (expanded _ (List.mem_of_find?_eq_some found) code listed)
  next =>
    split
    next s found =>
      -- The code point is between the ends of the run, and both of these stay on one side of the range.
      have inside := List.find?_some found
      have away := missed s (List.mem_of_find?_eq_some found)
      simp only [Run.contains, Bool.and_eq_true, decide_eq_true_eq] at inside
      rw [Shift.Misses] at away
      rw [List.forall_mem_singleton]
      exact ofNat_outside positive (by omega)
    next => simpa using outside

theorem mapCase_ne_underscore {shifts : List Shift} {expansions : List (Nat × List Nat)}
    (spared : ∀ s ∈ shifts, s.Spares) (expanded : ∀ e ∈ expansions, 95 ∉ e.2) {c : Char} (other : c ≠ '_') :
    '_' ∉ mapCase shifts expansions c := by
  have missed : ∀ s ∈ shifts, s.Misses 95 95 := spared
  have codes : ∀ e ∈ expansions, ∀ code ∈ e.2, ¬(95 ≤ code ∧ code ≤ 95) := by
    intro e listed code member inside
    have same : code = 95 := by omega
    exact expanded e listed (same ▸ member)
  have outside : ¬(95 ≤ c.toNat ∧ c.toNat ≤ 95) := by
    intro inside
    have same : c.toNat = 95 := by omega
    exact other (Char.toNat_inj.1 same)
  exact fun member => mapCase_outside (by decide) missed codes outside '_' member ⟨by decide, by decide⟩

set_option maxRecDepth 4000 in
theorem ascii_ne_underscore :
    ∀ n < 128, n ≠ 95 → (Char.ofNat n).toUpper ≠ '_' ∧ (Char.ofNat n).toLower ≠ '_' := by
  decide

set_option maxRecDepth 4000 in
theorem upperChar_ne_underscore {c : Char} (other : c ≠ '_') : '_' ∉ upperChar c := by
  have shifts : ∀ s ∈ CaseTable.upperShifts, s.Spares := by decide
  have expansions : ∀ e ∈ CaseTable.upperExpansions, 95 ∉ e.2 := by decide
  rw [upperChar]
  split
  next small =>
    have code : c.toNat ≠ 95 := fun same => other (Char.toNat_inj.1 same)
    have kept := (ascii_ne_underscore c.toNat small code).1
    rw [Char.ofNat_toNat] at kept
    simpa [eq_comm] using kept
  next => exact mapCase_ne_underscore shifts expansions other

set_option maxRecDepth 4000 in
theorem lowerChar_ne_underscore {c : Char} (other : c ≠ '_') : '_' ∉ lowerChar c := by
  have shifts : ∀ s ∈ CaseTable.lowerShifts, s.Spares := by decide
  have expansions : ∀ e ∈ CaseTable.lowerExpansions, 95 ∉ e.2 := by decide
  rw [lowerChar]
  split
  next small =>
    have code : c.toNat ≠ 95 := fun same => other (Char.toNat_inj.1 same)
    have kept := (ascii_ne_underscore c.toNat small code).2
    rw [Char.ofNat_toNat] at kept
    simpa [eq_comm] using kept
  next => exact mapCase_ne_underscore shifts expansions other

theorem lowerAfter_ne_underscore (before : List Char) {cs : List Char} (other : '_' ∉ cs) :
    '_' ∉ lowerAfter before cs := by
  induction cs generalizing before with
  | nil => exact other
  | cons c cs ih =>
    rw [List.mem_cons, not_or] at other
    rw [lowerAfter, List.mem_append, not_or]
    refine ⟨?_, ih _ other.2⟩
    -- A capital sigma becomes one of two small ones, and what follows it decides which.
    split
    next => split <;> decide
    next => exact lowerChar_ne_underscore (Ne.symm other.1)

end Text

namespace Naming

open Text (splitAt)

theorem pascalWord_ne_underscore {word : List Char} (other : '_' ∉ word) : '_' ∉ pascalWord word := by
  rw [pascalWord]
  cases word with
  | nil => exact other
  | cons c cs =>
    rw [List.mem_cons, not_or] at other
    rw [capitalize, List.mem_append, not_or]
    refine ⟨Text.upperChar_ne_underscore (Ne.symm other.1), ?_⟩
    split
    next => exact Text.lowerAfter_ne_underscore [] other.2
    next => exact other.2

theorem splitAt_ne_separator {sep : Char} {cs : List Char} : ∀ word ∈ splitAt sep cs, sep ∉ word := by
  fun_induction splitAt sep cs with
  | case1 => simp
  | case2 cs ih => simpa using ih
  | case3 c cs other none ih => simp [Ne.symm other]
  | case4 c cs other word words split ih =>
    rw [split, List.forall_mem_cons] at ih
    simpa [ih.1, Ne.symm other] using ih.2

theorem pascal_ne_underscore (name : String) : '_' ∉ (pascal name).toList := by
  rw [pascal, String.toList_ofList, pascalChars]
  split
  next =>
    intro member
    obtain ⟨word, listed, member⟩ := List.mem_flatMap.1 member
    exact pascalWord_ne_underscore (splitAt_ne_separator word (List.mem_filter.1 listed).1) member
  next plain => exact pascalWord_ne_underscore (by simpa using plain)

end Naming

end Protogen
