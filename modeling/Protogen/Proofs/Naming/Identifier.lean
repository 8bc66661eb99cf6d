import Protogen.Proofs.Naming.Pascal

set_option autoImplicit false

namespace Protogen

namespace Text

set_option maxRecDepth 4000 in
theorem ascii_not_small :
    ∀ n < 128, ¬(97 ≤ (Char.ofNat n).toUpper.toNat ∧ (Char.ofNat n).toUpper.toNat ≤ 122) := by
  decide

set_option maxRecDepth 4000 in
theorem not_small_upperChar (c : Char) : ∀ x ∈ upperChar c, ¬(97 ≤ x.toNat ∧ x.toNat ≤ 122) := by
  have missed : ∀ s ∈ CaseTable.upperShifts, s.Misses 97 122 := by decide
  have expanded : ∀ e ∈ CaseTable.upperExpansions, ∀ code ∈ e.2, ¬(97 ≤ code ∧ code ≤ 122) := by decide
  rw [upperChar]
  split
  next ascii =>
    have kept := ascii_not_small c.toNat ascii
    rw [Char.ofNat_toNat] at kept
    simpa using kept
  next => exact mapCase_outside (by decide) missed expanded (by omega)

set_option maxRecDepth 4000 in
theorem upperChar_ne_nil (c : Char) : upperChar c ≠ [] := by
  have expanded : ∀ e ∈ CaseTable.upperExpansions, e.2 ≠ [] := by decide
  rw [upperChar]
  split
  next => simp
  next =>
    rw [mapCase]
    split
    next found => simpa using expanded _ (List.mem_of_find?_eq_some found)
    next => split <;> simp

end Text

namespace Naming

open Text (splitAt)

theorem escapeKeyword_of_mem {s : String} (keyword : s ∈ keywords) : escapeKeyword s = s ++ "_" := by
  rw [escapeKeyword, if_pos (List.contains_iff_mem.2 keyword)]

theorem escapeKeyword_of_not_mem {s : String} (other : s ∉ keywords) : escapeKeyword s = s := by
  rw [escapeKeyword, if_neg (by simpa using other)]

def padded (name : String) (n : Nat) : String :=
  name ++ String.ofList (List.replicate n '_')

theorem toList_padded (name : String) (n : Nat) : (padded name n).toList = name.toList ++ List.replicate n '_' := by
  rw [padded, String.toList_append, String.toList_ofList]

theorem padded_zero (name : String) : padded name 0 = name :=
  String.append_empty

theorem padded_succ (name : String) (n : Nat) : padded (name ++ "_") n = padded name (n + 1) := by
  rw [← String.toList_inj, toList_padded, toList_padded, String.toList_append, List.append_assoc]
  rfl

theorem padded_injective (name : String) : Function.Injective (padded name) := by
  intro n m same
  have length := congrArg (·.toList.length) same
  simpa [toList_padded] using length

theorem variant_eq_padded (name : String) : ∃ n, variant name = padded (pascal name) n := by
  by_cases keyword : pascal name ∈ keywords
  next => exact ⟨1, escapeKeyword_of_mem keyword⟩
  next => exact ⟨0, (escapeKeyword_of_not_mem keyword).trans (padded_zero _).symm⟩

theorem takeWhile_padded_variant (name : String) (n : Nat) :
    (padded (variant name) n).toList.takeWhile (· != '_') = (pascal name).toList := by
  obtain ⟨m, own⟩ := variant_eq_padded name
  have plain : ∀ c ∈ (pascal name).toList, (c != '_') = true := by
    intro c member
    have other : c ≠ '_' := fun same => pascal_ne_underscore name (same ▸ member)
    simpa using other
  rw [own, toList_padded, toList_padded, List.append_assoc, List.replicate_append_replicate,
    List.takeWhile_append_of_pos plain, List.takeWhile_replicate]
  simp

-- Underscores at the end of one variant's name do not make it another's.
theorem variant_eq_of_padded {a b : String} {n : Nat} (same : variant a = padded (variant b) n) :
    variant a = variant b := by
  have stem := takeWhile_padded_variant a 0
  rw [padded_zero, same, takeWhile_padded_variant b n, String.toList_inj] at stem
  rw [variant, variant, stem]

-- Keywords in camel case

def Capital (cs : List Char) : Prop :=
  ∀ c, cs.head? = some c → ¬(97 ≤ c.toNat ∧ c.toNat ≤ 122)

theorem capital_nil : Capital [] := by
  simp [Capital]

instance : DecidablePred Capital
  | [] => isTrue capital_nil
  | c :: _ => decidable_of_iff (¬(97 ≤ c.toNat ∧ c.toNat ≤ 122)) (by simp [Capital])

theorem Capital.append {cs : List Char} (capital : Capital cs) (some : cs ≠ []) (more : List Char) :
    Capital (cs ++ more) := by
  obtain ⟨x, xs, rfl⟩ := List.exists_cons_of_ne_nil some
  exact fun c head => capital c head

theorem capital_pascalWord (word : List Char) : Capital (pascalWord word) := by
  rw [pascalWord]
  cases word with
  | nil => exact capital_nil
  | cons c cs =>
    obtain ⟨x, xs, upper⟩ := List.exists_cons_of_ne_nil (Text.upperChar_ne_nil c)
    have first := Text.not_small_upperChar c x (by simp [upper])
    rw [capitalize, upper]
    intro y head
    cases head
    exact first

theorem pascalWord_ne_nil {word : List Char} (some : word ≠ []) : pascalWord word ≠ [] := by
  obtain ⟨c, cs, rfl⟩ := List.exists_cons_of_ne_nil some
  rw [pascalWord, capitalize]
  exact List.append_ne_nil_of_left_ne_nil (Text.upperChar_ne_nil c) _

theorem capital_pascal (name : String) : Capital (pascal name).toList := by
  rw [pascal, String.toList_ofList, pascalChars]
  split
  next =>
    -- The first word that is kept is not empty, so the name begins as it does.
    cases kept : (splitAt '_' name.toList).filter (!·.isEmpty) with
    | nil => exact capital_nil
    | cons word words =>
      have some : word ≠ [] := by
        have member : word ∈ (splitAt '_' name.toList).filter (!·.isEmpty) := by simp [kept]
        simpa using (List.mem_filter.1 member).2
      rw [List.flatMap_cons]
      exact (capital_pascalWord word).append (pascalWord_ne_nil some) _
  next => exact capital_pascalWord _

theorem pascal_mem_keywords (name : String) : pascal name ∈ keywords ↔ pascal name = "Self" := by
  have others : ∀ k ∈ keywords, Capital k.toList → k = "Self" := by decide
  constructor
  · intro keyword
    exact others _ keyword (capital_pascal name)
  · intro self
    rw [self]
    decide

-- Identifiers

/-- The names have one identifier: their words are the same, or those of one are a keyword, which is escaped, and
the other has the underscore already. -/
def Meet (a b : String) : Prop :=
  snake a = snake b ∨ (snake a ∈ keywords ∧ snake b = snake a ++ "_") ∨ (snake b ∈ keywords ∧ snake a = snake b ++ "_")

instance (a b : String) : Decidable (Meet a b) :=
  inferInstanceAs (Decidable (_ ∨ _))

theorem append_underscore_not_mem (s : String) : s ++ "_" ∉ keywords := by
  have plain : ∀ k ∈ keywords, '_' ∉ k.toList := by decide
  intro keyword
  exact plain _ keyword (by simp)

-- Escaping keeps names apart, a keyword and the name that it is escaped to excepted.
theorem escapeKeyword_eq_iff {x y : String} : escapeKeyword x = escapeKeyword y ↔
    x = y ∨ (x ∈ keywords ∧ y = x ++ "_") ∨ (y ∈ keywords ∧ x = y ++ "_") := by
  by_cases first : x ∈ keywords <;> by_cases second : y ∈ keywords
  next =>
    have left : x ≠ y ++ "_" := fun same => append_underscore_not_mem y (same ▸ first)
    have right : y ≠ x ++ "_" := fun same => append_underscore_not_mem x (same ▸ second)
    rw [escapeKeyword_of_mem first, escapeKeyword_of_mem second, String.append_left_inj]
    simp [left, right]
  next =>
    have other : x ≠ y := fun same => second (same ▸ first)
    rw [escapeKeyword_of_mem first, escapeKeyword_of_not_mem second]
    simp [first, second, other, eq_comm]
  next =>
    have other : x ≠ y := fun same => first (same ▸ second)
    rw [escapeKeyword_of_not_mem first, escapeKeyword_of_mem second]
    simp [first, second, other]
  next =>
    rw [escapeKeyword_of_not_mem first, escapeKeyword_of_not_mem second]
    simp [first, second]

theorem fieldIdent_eq_iff {a b : String} : fieldIdent a = fieldIdent b ↔ Meet a b :=
  escapeKeyword_eq_iff

def Small (name : String) : Prop :=
  (∀ c ∈ name.toList, Text.isUpper c = false) ∧ name.toList.getLast? ≠ some '_'

instance (name : String) : Decidable (Small name) :=
  inferInstanceAs (Decidable (_ ∧ _))

theorem snake_eq_self {name : String} (small : ∀ c ∈ name.toList, Text.isUpper c = false) : snake name = name := by
  have kept (cs : List Char) : ∀ before, (∀ c ∈ cs, Text.isUpper c = false) → snakeFrom before cs = cs := by
    induction cs with
    | nil => exact fun _ _ => rfl
    | cons c cs ih =>
      intro before small
      rw [List.forall_mem_cons] at small
      rw [snakeFrom, small.1, ih _ small.2]
      rfl
  rw [snake, snakeChars, kept _ _ small, String.ofList_toList]

-- Names in small letters keep themselves apart.
theorem meet_iff_of_small {a b : String} (first : Small a) (second : Small b) : Meet a b ↔ a = b := by
  have longer {x y : String} (small : Small y) : y ≠ x ++ "_" := by
    intro same
    exact small.2 (by simp [same])
  rw [Meet, snake_eq_self first.1, snake_eq_self second.1]
  simp [longer first, longer second]

end Naming

end Protogen
