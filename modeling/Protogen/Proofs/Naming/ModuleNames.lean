import Protogen.Naming.Module
import Protogen.Proofs.Naming.Identifier

set_option autoImplicit false

namespace Protogen

namespace Text

theorem stripEnd?_append (cs ending : List Char) : stripEnd? (cs ++ ending) ending = some cs := by
  rw [stripEnd?, if_pos (List.isSuffixOf_iff_suffix.2 (List.suffix_append cs ending))]
  simp

end Text

namespace Naming

def isWordChar (c : Char) : Bool :=
  c.isAlphanum || c == '_'

def isIdentifier (name : String) : Bool :=
  name.toList.all isWordChar && (name.toList.head?.map fun c => !c.isDigit).getD false && !keywords.contains name &&
    name != "_"

-- Underscores in place of what is neither a letter nor a digit.
def masked (segment : String) : List Char :=
  segment.toList.map fun c => if c.isAlphanum then c else '_'

def digitLed (cs : List Char) : Bool :=
  (cs.head?.map Char.isDigit).getD false

def bareIdent (segment : String) : String :=
  String.ofList (if digitLed (masked segment) then '_' :: masked segment else masked segment)

theorem moduleIdent_eq (segment : String) : moduleIdent segment = escapeKeyword (bareIdent segment) :=
  rfl

/-- The parts have one identifier: all their letters and digits are the same in the same places, or those of one are a
keyword, which is escaped, and the other has the underscore already. -/
def Alike (s t : String) : Prop :=
  bareIdent s = bareIdent t ∨ (bareIdent s ∈ keywords ∧ bareIdent t = bareIdent s ++ "_") ∨
    (bareIdent t ∈ keywords ∧ bareIdent s = bareIdent t ++ "_")

instance (s t : String) : Decidable (Alike s t) :=
  inferInstanceAs (Decidable (_ ∨ _))

theorem moduleIdent_eq_iff {s t : String} : moduleIdent s = moduleIdent t ↔ Alike s t :=
  escapeKeyword_eq_iff

def Lone (segment : String) : Prop :=
  ∃ c, segment.toList = [c] ∧ c.isAlphanum = false

instance (segment : String) : Decidable (Lone segment) :=
  match found : segment.toList with
  | [c] => decidable_of_iff (c.isAlphanum = false) (by simp [Lone, found])
  | [] => isFalse (by simp [Lone, found])
  | _ :: _ :: _ => isFalse (by simp [Lone, found])

def Plain (segment : String) : Prop :=
  (∀ c ∈ segment.toList, c ≠ '"' ∧ c ≠ '\\' ∧ c ≠ '\r') ∧ ¬Lone segment

instance (segment : String) : Decidable (Plain segment) :=
  @instDecidableAnd _ _ (List.decidableBAll _ _) inferInstance

section Identifiers

variable {s t : String}

theorem masked_word : ∀ c ∈ masked s, isWordChar c = true := by
  simp only [masked, List.forall_mem_map, isWordChar]
  intro c _
  by_cases plain : c.isAlphanum = true <;> simp [plain]

theorem bareIdent_word : ∀ c ∈ (bareIdent s).toList, isWordChar c = true := by
  rw [bareIdent, String.toList_ofList]
  split
  · exact List.forall_mem_cons.2 ⟨rfl, masked_word⟩
  · exact masked_word

theorem bareIdent_ne_nil (some : s ≠ "") : (bareIdent s).toList ≠ [] := by
  rw [bareIdent, String.toList_ofList]
  split
  · exact List.cons_ne_nil _ _
  · simpa [masked] using some

theorem head_bareIdent {c : Char} (first : (bareIdent s).toList.head? = some c) : c.isDigit = false := by
  rw [bareIdent, String.toList_ofList] at first
  split at first
  · cases first
    rfl
  next other => simpa [digitLed, first] using other

theorem lone_of_bareIdent (same : bareIdent s = "_") : Lone s := by
  rw [← String.toList_inj, bareIdent, String.toList_ofList] at same
  split at same
  next digit =>
    have none : masked s = [] := (List.cons.inj same).2
    simp [digitLed, none] at digit
  next =>
    obtain ⟨c, single, sign⟩ := List.map_eq_singleton_iff.1 same
    refine ⟨c, single, ?_⟩
    by_cases plain : c.isAlphanum = true
    next =>
      rw [if_pos plain] at sign
      subst sign
      exact absurd plain (by decide)
    next => simpa using plain

theorem moduleIdent_word : ∀ c ∈ (moduleIdent s).toList, isWordChar c = true := by
  rw [moduleIdent_eq]
  by_cases keyword : bareIdent s ∈ keywords
  next =>
    rw [escapeKeyword_of_mem keyword, String.toList_append, List.forall_mem_append]
    exact ⟨bareIdent_word, List.forall_mem_singleton.2 rfl⟩
  next =>
    rw [escapeKeyword_of_not_mem keyword]
    exact bareIdent_word

theorem moduleIdent_ne_empty (some : s ≠ "") : moduleIdent s ≠ "" := by
  rw [moduleIdent_eq, escapeKeyword, ne_eq, ← String.toList_eq_nil_iff]
  split <;> simp [bareIdent_ne_nil some]

theorem isIdentifier_iff : isIdentifier s = true ↔ (∀ c ∈ s.toList, isWordChar c = true) ∧
    (∃ c, s.toList.head? = some c ∧ c.isDigit = false) ∧ s ∉ keywords ∧ s ≠ "_" := by
  have first : (s.toList.head?.map fun c => !c.isDigit).getD false = true ↔
      ∃ c, s.toList.head? = some c ∧ c.isDigit = false := by
    cases s.toList.head? <;> simp
  simp only [isIdentifier, Bool.and_eq_true, List.all_eq_true, first, bne_iff_ne, Bool.not_eq_true',
    List.contains_eq_mem, decide_eq_false_iff_not, and_assoc]

theorem isIdentifier_moduleIdent (some : s ≠ "") (other : ¬Lone s) : isIdentifier (moduleIdent s) = true := by
  obtain ⟨c, cs, bare⟩ := List.exists_cons_of_ne_nil (bareIdent_ne_nil some)
  have first : c.isDigit = false := head_bareIdent (s := s) (by rw [bare]; rfl)
  refine isIdentifier_iff.2 ⟨moduleIdent_word, ?_⟩
  rw [moduleIdent_eq]
  by_cases keyword : bareIdent s ∈ keywords
  next =>
    rw [escapeKeyword_of_mem keyword]
    refine ⟨⟨c, by simp [bare], first⟩, append_underscore_not_mem _, fun same => ?_⟩
    have long := congrArg String.toList same
    simp [bare] at long
  next =>
    rw [escapeKeyword_of_not_mem keyword]
    exact ⟨⟨c, by simp [bare], first⟩, keyword, fun same => other (lone_of_bareIdent same)⟩

end Identifiers

/-- A part of letters, digits and underscores that does not have the underscore before a digit, or behind a keyword, by
which identifiers are made. -/
def Ordinary (segment : String) : Prop :=
  (∀ c ∈ segment.toList, isWordChar c = true) ∧
    (segment.toList.head? = some '_' → digitLed segment.toList.tail = false) ∧ ∀ k ∈ keywords, segment ≠ k ++ "_"

instance (segment : String) : Decidable (Ordinary segment) :=
  @instDecidableAnd _ _ (List.decidableBAll _ _) inferInstance

section Ordinary

variable {s t : String}

theorem Ordinary.masked (ordinary : Ordinary s) : Naming.masked s = s.toList := by
  rw [Naming.masked]
  refine (List.map_congr_left fun c member => ?_).trans (List.map_id _)
  have word := ordinary.1 c member
  by_cases plain : c.isAlphanum = true
  next => rw [if_pos plain, id_eq]
  next =>
    have sign : c = '_' := by simpa [isWordChar, plain] using word
    rw [if_neg plain, id_eq, sign]

theorem Ordinary.bareIdent (ordinary : Ordinary s) :
    (Naming.bareIdent s).toList = if digitLed s.toList then '_' :: s.toList else s.toList := by
  rw [Naming.bareIdent, String.toList_ofList, ordinary.masked]

theorem Ordinary.of_bareIdent (first : Ordinary s) (second : Ordinary t)
    (same : Naming.bareIdent s = Naming.bareIdent t) : s = t := by
  rw [← String.toList_inj, first.bareIdent, second.bareIdent] at same
  rw [← String.toList_inj]
  -- An underscore in front of a digit is there only where it was put.
  by_cases digit : digitLed s.toList = true <;> by_cases digit' : digitLed t.toList = true
  next =>
    rw [if_pos digit, if_pos digit'] at same
    exact (List.cons.inj same).2
  next =>
    rw [if_pos digit, if_neg digit'] at same
    have led := second.2.1 (by rw [← same]; rfl)
    rw [← same, List.tail_cons, digit] at led
    cases led
  next =>
    rw [if_neg digit, if_pos digit'] at same
    have led := first.2.1 (by rw [same]; rfl)
    rw [same, List.tail_cons, digit'] at led
    cases led
  next => rwa [if_neg digit, if_neg digit'] at same

theorem Ordinary.ne_escaped (ordinary : Ordinary s) {k : String} (keyword : k ∈ keywords) :
    Naming.bareIdent s ≠ k ++ "_" := by
  have plain : ∀ k ∈ keywords, k.toList ≠ [] ∧ k.toList.head? ≠ some '_' := by decide
  intro same
  rw [← String.toList_inj, ordinary.bareIdent, String.toList_append] at same
  split at same
  next =>
    obtain ⟨c, cs, chars⟩ := List.exists_cons_of_ne_nil (plain k keyword).1
    rw [chars] at same
    refine (plain k keyword).2 ?_
    rw [chars, List.head?_cons, (List.cons.inj same).1]
  next =>
    rw [← String.toList_append, String.toList_inj] at same
    exact ordinary.2.2 k keyword same

-- Ordinary parts keep themselves apart.
theorem alike_iff_of_ordinary (first : Ordinary s) (second : Ordinary t) : Alike s t ↔ s = t := by
  constructor
  · rintro (same | ⟨keyword, same⟩ | ⟨keyword, same⟩)
    · exact first.of_bareIdent second same
    · exact absurd same (second.ne_escaped keyword)
    · exact absurd same (first.ne_escaped keyword)
  · intro same
    exact .inl (congrArg _ same)

end Ordinary

-- Paths of modules

theorem eq_of_words {first second rest rest' : List Char} (word : ∀ c ∈ first, isWordChar c = true)
    (word' : ∀ c ∈ second, isWordChar c = true) (other : ∀ c ∈ rest.head?, isWordChar c = false)
    (other' : ∀ c ∈ rest'.head?, isWordChar c = false) (same : first ++ rest = second ++ rest') :
    first = second ∧ rest = rest' := by
  have none {rest : List Char} (other : ∀ c ∈ rest.head?, isWordChar c = false) : rest.takeWhile isWordChar = [] := by
    cases rest with
    | nil => rfl
    | cons c rest => simp [other c rfl]
  have words := congrArg (List.takeWhile isWordChar) same
  rw [List.takeWhile_append_of_pos word, List.takeWhile_append_of_pos word', none other, none other',
    List.append_nil, List.append_nil] at words
  subst words
  exact ⟨rfl, List.append_cancel_left same⟩

def behind (names : List String) : List Char :=
  names.flatMap fun name => ':' :: ':' :: name.toList

theorem toList_joined (name : String) (names : List String) :
    (joined "::" (name :: names)).toList = name.toList ++ behind names := by
  induction names generalizing name with
  | nil => simp [joined, behind]
  | cons name' names ih =>
    rw [joined, String.intercalate_cons_cons, ← joined, String.toList_append, ih, behind, behind, List.flatMap_cons]
    simp

theorem head_behind (names : List String) : ∀ c ∈ (behind names).head?, isWordChar c = false := by
  cases names with
  | nil => nofun
  | cons name names =>
    intro c head
    cases head
    rfl

theorem behind_injective {names names' : List String} (words : ∀ n ∈ names, ∀ c ∈ n.toList, isWordChar c = true)
    (words' : ∀ n ∈ names', ∀ c ∈ n.toList, isWordChar c = true) (same : behind names = behind names') :
    names = names' := by
  induction names generalizing names' with
  | nil =>
    cases names' with
    | nil => rfl
    | cons name' names' => cases same
  | cons name names ih =>
    cases names' with
    | nil => cases same
    | cons name' names' =>
      rw [List.forall_mem_cons] at words words'
      have rest : name.toList ++ behind names = name'.toList ++ behind names' := (List.cons.inj (List.cons.inj same).2).2
      obtain ⟨first, others⟩ := eq_of_words words.1 words'.1 (head_behind _) (head_behind _) rest
      rw [String.toList_inj.1 first, ih words.2 words'.2 others]

theorem joined_injective {names names' : List String} (words : ∀ n ∈ names, ∀ c ∈ n.toList, isWordChar c = true)
    (words' : ∀ n ∈ names', ∀ c ∈ n.toList, isWordChar c = true) (some : "" ∉ names) (some' : "" ∉ names')
    (same : joined "::" names = joined "::" names') : names = names' := by
  have nonempty (name : String) (names : List String) (some : "" ∉ name :: names) :
      joined "::" (name :: names) ≠ joined "::" [] := by
    have own : name ≠ "" := fun empty => some (empty ▸ List.mem_cons_self)
    have none : (joined "::" []).toList = [] := rfl
    intro same
    rw [← String.toList_inj, toList_joined, none, List.append_eq_nil_iff] at same
    exact own (String.toList_eq_nil_iff.1 same.1)
  cases names with
  | nil =>
    cases names' with
    | nil => rfl
    | cons name' names' => exact absurd same.symm (nonempty _ _ some')
  | cons name names =>
    cases names' with
    | nil => exact absurd same (nonempty _ _ some)
    | cons name' names' =>
      rw [← String.toList_inj, toList_joined, toList_joined] at same
      rw [List.forall_mem_cons] at words words'
      obtain ⟨first, others⟩ := eq_of_words words.1 words'.1 (head_behind _) (head_behind _) same
      rw [String.toList_inj.1 first, behind_injective words.2 words'.2 others]

end Naming

end Protogen
