import Mathlib.Data.List.Basic
import Protogen.Compile.Options
import Protogen.Proofs.Text.Trim

set_option autoImplicit false

namespace Protogen

open Text (Blank Trimmed isBlank trim)

namespace Text

theorem splitAt_eq_splitOn (sep : Char) (cs : List Char) : splitAt sep cs = cs.splitOn sep := by
  induction cs with
  | nil => rfl
  | cons c cs ih =>
    rw [splitAt, List.splitOn, List.splitOnP_cons_eq_if_modifyHead, ← List.splitOn, ← ih]
    by_cases same : c = sep
    next => simp [same]
    next =>
      cases pieces : splitAt sep cs with
      | nil => exact absurd pieces (splitAt_ne_nil sep cs)
      | cons p ps => simp [same]

theorem trim_eq_nil_iff {cs : List Char} : trim cs = [] ↔ Blank cs := by
  constructor
  next =>
    intro none
    obtain ⟨front, back, split, blank, blank'⟩ := exists_trim cs
    rw [none, List.nil_append] at split
    rw [split]
    exact List.forall_mem_append.2 ⟨blank, blank'⟩
  next =>
    intro blank
    have empty : Blank [] := nofun
    have none : Trimmed [] := ⟨nofun, nofun⟩
    have kept := trim_append blank none empty
    rwa [List.append_nil, List.append_nil] at kept

end Text

namespace Options

-- The pieces between commas that are not blank.
def pieces (text : String) : List (List Char) :=
  (text.toList.splitOn ',').filter fun piece => !piece.all isBlank

-- The piece without the white space around it and around its first equals sign.
def tidy (piece : List Char) : List Char :=
  match piece.dropWhile (· != '=') with
  | [] => trim piece
  | _ :: value => trim (piece.takeWhile (· != '=')) ++ '=' :: trim value

structure Word (start : Char → Bool) (key : List Char) : Prop where
  first : ∃ c, key.head? = some c ∧ start c = true
  rest : ∀ c ∈ key, isIdentRest c = true

structure Solid (value : List Char) : Prop where
  nonempty : value ≠ []
  plain : ∀ c ∈ value, isBlank c = false

instance (value : List Char) : Decidable (Solid value) :=
  decidable_of_iff (value ≠ [] ∧ value.any isBlank = false)
    ⟨fun both => ⟨both.1, by simpa using both.2⟩, fun solid => ⟨solid.nonempty, by simpa using solid.plain⟩⟩

theorem not_isBlank_of_isIdentRest {c : Char} (ident : isIdentRest c = true) : isBlank c = false := by
  have bounds : (48 ≤ c.toNat ∧ c.toNat ≤ 57) ∨ (65 ≤ c.toNat ∧ c.toNat ≤ 90) ∨ c.toNat = 95 ∨
      (97 ≤ c.toNat ∧ c.toNat ≤ 122) := by
    change ((decide (c.val ≥ 'A'.val ∧ c.val ≤ 'Z'.val) || (c.val ≥ 'a'.val && c.val ≤ 'z'.val) ||
      (c.val ≥ '0'.val && c.val ≤ '9'.val)) || decide (c = '_')) = true at ident
    simp only [Bool.or_eq_true, Bool.and_eq_true, decide_eq_true_eq] at ident
    rcases ident with ((capital | small) | digit) | underscore
    next => exact .inr (.inl capital)
    next => exact .inr (.inr (.inr small))
    next => exact .inl digit
    next => exact .inr (.inr (.inl (congrArg Char.toNat underscore)))
  simp only [isBlank, Bool.or_eq_false_iff, Bool.and_eq_false_iff, decide_eq_false_iff_not, beq_eq_false_iff_ne]
  omega

theorem ne_equals_of_isIdentRest {c : Char} (ident : isIdentRest c = true) : c ≠ '=' := by
  rintro rfl
  exact absurd ident (by decide)

theorem ne_equals_of_isBlank {c : Char} (blank : isBlank c = true) : c ≠ '=' := by
  rintro rfl
  exact absurd blank (by decide)

variable {start : Char → Bool} {piece key value : List Char}

theorem Word.trimmed (word : Word start key) : Trimmed key :=
  .of_none fun c member => not_isBlank_of_isIdentRest (word.rest c member)

theorem Word.plain (word : Word start key) : '=' ∉ key :=
  fun member => ne_equals_of_isIdentRest (word.rest _ member) rfl

theorem Word.ne_nil (word : Word start key) : key ≠ [] := by
  rintro rfl
  obtain ⟨c, head, -⟩ := word.first
  cases head

-- Tidying

theorem bne_equals_of_plain (plain : '=' ∉ piece) : ∀ c ∈ piece, (c != '=') = true := by
  intro c member
  have other : c ≠ '=' := fun same => plain (same ▸ member)
  simpa using other

theorem tidy_plain (plain : '=' ∉ piece) : tidy piece = trim piece := by
  rw [tidy, List.dropWhile_eq_nil_iff.2 (bne_equals_of_plain plain)]

theorem takeWhile_pair (plain : '=' ∉ key) (value : List Char) : (key ++ '=' :: value).takeWhile (· != '=') = key := by
  rw [List.takeWhile_append_of_pos (bne_equals_of_plain plain)]
  simp

theorem tidy_pair (plain : '=' ∉ key) (value : List Char) :
    tidy (key ++ '=' :: value) = trim key ++ '=' :: trim value := by
  have rest : (key ++ '=' :: value).dropWhile (· != '=') = '=' :: value := by
    rw [List.dropWhile_append_of_pos (bne_equals_of_plain plain)]
    rfl
  rw [tidy, rest, takeWhile_pair plain]

-- The first equals sign tells the key from the value.
theorem pair_inj {key' value' : List Char} (plain : '=' ∉ key) (plain' : '=' ∉ key')
    (same : key ++ '=' :: value = key' ++ '=' :: value') : key = key' ∧ value = value' := by
  have keys : key = key' := by
    rw [← takeWhile_pair plain value, same, takeWhile_pair plain']
  subst keys
  exact ⟨rfl, List.tail_eq_of_cons_eq (List.append_cancel_left same)⟩

def Spaced (piece key value : List Char) : Prop :=
  ∃ a b c d, piece = a ++ (key ++ b) ++ '=' :: (c ++ (value ++ d)) ∧ Blank a ∧ Blank b ∧ Blank c ∧ Blank d

theorem Spaced.tidy (spaced : Spaced piece key value) (word : Word start key) (solid : Solid value) :
    Options.tidy piece = key ++ '=' :: value := by
  obtain ⟨a, b, c, d, rfl, blank, blank', blank₂, blank₃⟩ := spaced
  have plain : '=' ∉ a ++ (key ++ b) := by
    simp only [List.mem_append, not_or]
    exact ⟨fun member => ne_equals_of_isBlank (blank _ member) rfl, word.plain,
      fun member => ne_equals_of_isBlank (blank' _ member) rfl⟩
  rw [tidy_pair plain, Text.trim_append blank word.trimmed blank',
    Text.trim_append blank₂ (.of_none solid.plain) blank₃]

theorem spaced_of_tidy (plain : '=' ∉ key) (tidied : tidy piece = key ++ '=' :: value) : Spaced piece key value := by
  by_cases listed : '=' ∈ piece
  next =>
    obtain ⟨before, after, rfl, first⟩ := List.eq_append_cons_of_mem listed
    obtain ⟨a, b, split, blank, blank'⟩ := Text.exists_trim before
    obtain ⟨c, d, split', blank₂, blank₃⟩ := Text.exists_trim after
    have inside : '=' ∉ trim before := by
      intro member
      rw [split] at first
      simp [member] at first
    rw [tidy_pair first] at tidied
    obtain ⟨rfl, rfl⟩ := pair_inj inside plain tidied
    exact ⟨a, b, c, d, by rw [← split, ← split'], blank, blank', blank₂, blank₃⟩
  next =>
    -- Without an equals sign there is none in what is left.
    obtain ⟨a, b, split, -⟩ := Text.exists_trim piece
    have member : '=' ∈ trim piece := by
      rw [← tidy_plain listed, tidied]
      simp
    have inside : '=' ∈ a ++ (trim piece ++ b) := List.mem_append_right _ (List.mem_append_left _ member)
    exact absurd (split ▸ inside) listed

theorem isIdentRest_head {blanks : List Char} (blank : Blank blanks) (rest : List Char) :
    ∀ c, (blanks ++ '=' :: rest).head? = some c → isIdentRest c = false := by
  intro c head
  by_contra ident
  rw [Bool.not_eq_false] at ident
  cases blanks with
  | nil =>
    cases head
    exact ne_equals_of_isIdentRest ident rfl
  | cons b bs =>
    cases head
    exact absurd (blank c (List.mem_cons_self ..)) (by simp [not_isBlank_of_isIdentRest ident])

theorem trim_spaced {a b c d : List Char} (blank : Blank a) (blank' : Blank d) (word : Word start key)
    (solid : Solid value) :
    trim (a ++ (key ++ b) ++ '=' :: (c ++ (value ++ d))) = key ++ (b ++ '=' :: (c ++ value)) := by
  have trimmed : Trimmed (key ++ (b ++ '=' :: (c ++ value))) := by
    constructor
    next =>
      intro first head
      rw [List.head?_append_of_ne_nil _ word.ne_nil] at head
      exact word.trimmed.first first head
    next =>
      intro last final
      have regrouped : key ++ (b ++ '=' :: (c ++ value)) = key ++ b ++ '=' :: c ++ value := by simp
      rw [regrouped, List.getLast?_append_of_ne_nil _ solid.nonempty] at final
      exact solid.plain last (List.mem_of_getLast? final)
  have regrouped : a ++ (key ++ b) ++ '=' :: (c ++ (value ++ d)) =
      a ++ (key ++ (b ++ '=' :: (c ++ value)) ++ d) := by simp
  rw [regrouped, Text.trim_append blank trimmed blank']

theorem Spaced.readPair? (spaced : Spaced piece key value) (word : Word Char.isAlpha key) (solid : Solid value) :
    Options.readPair? piece = some (String.ofList key, String.ofList value) := by
  obtain ⟨a, b, c, d, rfl, blank, blank', blank₂, blank₃⟩ := spaced
  have after := isIdentRest_head blank' (c ++ value)
  have equals : ∀ e, ('=' :: (c ++ value)).head? = some e → isBlank e = false := by
    rintro e ⟨⟩
    decide
  have start : ∀ e, value.head? = some e → isBlank e = false := (Trimmed.of_none solid.plain).first
  have nonempty : value.isEmpty = false := by simpa using solid.nonempty
  have plain : value.any isBlank = false := by simpa using solid.plain
  obtain ⟨k, head, letter⟩ := word.first
  obtain ⟨ks, rfl⟩ := List.head?_eq_some_iff.1 head
  simp only [Options.readPair?, trim_spaced blank blank₃ word solid, Text.takeWhile_append_of_head word.rest after,
    Text.dropWhile_append_of_head word.rest after, Text.dropWhile_append_of_head blank' equals,
    Text.dropWhile_append_of_head blank₂ start, letter, nonempty, plain, Bool.not_false, Bool.and_self, if_true]

theorem spaced_of_readPair? {piece : List Char} {key value : String} (read : readPair? piece = some (key, value)) :
    Spaced piece key.toList value.toList ∧ Word Char.isAlpha key.toList ∧ Solid value.toList := by
  obtain ⟨front, back, split, blank, blank'⟩ := Text.exists_trim piece
  simp only [readPair?] at read
  split at read
  next k ks rest word sign =>
    split at read
    next accepted =>
      simp only [Bool.and_eq_true, Bool.not_eq_true', List.isEmpty_eq_false_iff, List.any_eq_false] at accepted
      obtain ⟨⟨letter, nonempty⟩, plain⟩ := accepted
      cases read
      rw [String.toList_ofList, String.toList_ofList]
      refine ⟨⟨front, (trim piece |>.dropWhile isIdentRest).takeWhile isBlank, rest.takeWhile isBlank, back, ?_, blank,
        List.all_eq_true.1 List.all_takeWhile, List.all_eq_true.1 List.all_takeWhile, blank'⟩, ⟨?_, ?_⟩, ⟨nonempty, ?_⟩⟩
      next =>
        have inside : trim piece = (trim piece).takeWhile isIdentRest ++
            (((trim piece).dropWhile isIdentRest).takeWhile isBlank ++
              '=' :: (rest.takeWhile isBlank ++ rest.dropWhile isBlank)) := by
          rw [List.takeWhile_append_dropWhile, ← sign, List.takeWhile_append_dropWhile,
            List.takeWhile_append_dropWhile]
        calc piece = front ++ (trim piece ++ back) := split
          _ = _ := congrArg (fun inner => front ++ (inner ++ back)) inside
          _ = _ := by simp only [List.append_assoc, List.cons_append]
      next => exact ⟨k, by rw [word, List.head?_cons], letter⟩
      next => exact List.all_eq_true.1 List.all_takeWhile
      next => exact fun c member => Bool.not_eq_true _ ▸ plain c member
    next => cases read
  next => cases read

theorem readPair?_eq_some_iff {piece : List Char} {key value : String} :
    readPair? piece = some (key, value) ↔
      tidy piece = key.toList ++ '=' :: value.toList ∧ Word Char.isAlpha key.toList ∧ Solid value.toList := by
  constructor
  next =>
    intro read
    obtain ⟨spaced, word, solid⟩ := spaced_of_readPair? read
    exact ⟨spaced.tidy word solid, word, solid⟩
  next =>
    rintro ⟨tidied, word, solid⟩
    simpa using (spaced_of_tidy word.plain tidied).readPair? word solid

-- Paths

def IsPath (text : List Char) : Prop :=
  ∃ opening names, opening ∈ [[], [':', ':']] ∧ names ≠ [] ∧ (∀ name ∈ names, Word isIdentStart name) ∧
    text = opening ++ [':', ':'].intercalate names

theorem isIdentRest_of_isIdentStart {c : Char} (start : isIdentStart c = true) : isIdentRest c = true := by
  change (c.isAlpha || c.isDigit || decide (c = '_')) = true
  simp only [isIdentStart, Bool.or_eq_true] at start ⊢
  exact start.imp_left .inl

theorem intercalate_cons {sep name : List Char} {names : List (List Char)} (more : names ≠ []) :
    sep.intercalate (name :: names) = name ++ (sep ++ sep.intercalate names) := by
  obtain ⟨name', rest, rfl⟩ := List.exists_cons_of_ne_nil more
  simp [List.intercalate]

theorem intercalate_singleton (sep name : List Char) : sep.intercalate [name] = name := by
  simp [List.intercalate]

theorem plain_intercalate {sep : List Char} {names : List (List Char)} (plain : ∀ c ∈ sep, isBlank c = false)
    (each : ∀ name ∈ names, ∀ c ∈ name, isBlank c = false) : ∀ c ∈ sep.intercalate names, isBlank c = false := by
  induction names with
  | nil => nofun
  | cons name names ih =>
    obtain ⟨first, each⟩ := List.forall_mem_cons.1 each
    by_cases last : names = []
    next => rwa [last, intercalate_singleton]
    next =>
      rw [intercalate_cons last]
      exact List.forall_mem_append.2 ⟨first, List.forall_mem_append.2 ⟨plain, ih each⟩⟩

theorem isPathFrom_of_names {fuel : Nat} {names : List (List Char)} (some : names ≠ [])
    (words : ∀ name ∈ names, Word isIdentStart name) (enough : names.length ≤ fuel) :
    isPathFrom fuel ([':', ':'].intercalate names) = true := by
  induction fuel generalizing names with
  | zero => exact absurd (List.length_eq_zero_iff.1 (Nat.le_zero.1 enough)) some
  | succ fuel ih =>
    obtain ⟨name, names, rfl⟩ := List.exists_cons_of_ne_nil some
    obtain ⟨⟨c, head, start⟩, rest⟩ := words name (List.mem_cons_self ..)
    obtain ⟨cs, rfl⟩ := List.head?_eq_some_iff.1 head
    have tail : ∀ d ∈ cs, isIdentRest d = true := fun d member => rest d (List.mem_cons_of_mem _ member)
    by_cases last : names = []
    next =>
      have ended : cs.dropWhile isIdentRest = [] := List.dropWhile_eq_nil_iff.2 tail
      rw [last, intercalate_singleton]
      simp only [isPathFrom, start, ended, Bool.and_self]
    next =>
      have colon : ∀ d, (':' :: ':' :: [':', ':'].intercalate names).head? = Option.some d →
          isIdentRest d = false := by
        rintro d ⟨⟩
        decide
      have further := ih last (fun name member => words name (List.mem_cons_of_mem _ member))
        (Nat.le_of_succ_le_succ enough)
      rw [intercalate_cons last]
      simp only [isPathFrom, List.cons_append, List.nil_append, start, Text.dropWhile_append_of_head tail colon, further,
        Bool.and_self]

theorem names_of_isPathFrom {fuel : Nat} {cs : List Char} (path : isPathFrom fuel cs = true) :
    ∃ names, names ≠ [] ∧ (∀ name ∈ names, Word isIdentStart name) ∧ cs = [':', ':'].intercalate names := by
  induction fuel generalizing cs with
  | zero => cases path
  | succ fuel ih =>
    cases cs with
    | nil => cases path
    | cons c cs =>
      rw [isPathFrom, Bool.and_eq_true] at path
      obtain ⟨start, rest⟩ := path
      have split : cs.takeWhile isIdentRest ++ cs.dropWhile isIdentRest = cs := List.takeWhile_append_dropWhile
      have word : Word isIdentStart (c :: cs.takeWhile isIdentRest) :=
        ⟨⟨c, rfl, start⟩, List.forall_mem_cons.2
          ⟨isIdentRest_of_isIdentStart start, List.all_eq_true.1 List.all_takeWhile⟩⟩
      split at rest
      next ended =>
        refine ⟨[c :: cs.takeWhile isIdentRest], List.cons_ne_nil _ _, List.forall_mem_singleton.2 word, ?_⟩
        rw [ended, List.append_nil] at split
        rw [intercalate_singleton, split]
      next further colons =>
        obtain ⟨names, some, words, rfl⟩ := ih rest
        refine ⟨(c :: cs.takeWhile isIdentRest) :: names, List.cons_ne_nil _ _,
          List.forall_mem_cons.2 ⟨word, words⟩, ?_⟩
        rw [colons] at split
        rw [intercalate_cons some]
        exact congrArg (c :: ·) split.symm
      next => cases rest

theorem length_le_length_intercalate {names : List (List Char)} (words : ∀ name ∈ names, name ≠ [])
    (sep : List Char) : names.length ≤ (sep.intercalate names).length := by
  induction names with
  | nil => simp
  | cons name names ih =>
    have start : 0 < name.length := List.length_pos_iff.2 (words name (List.mem_cons_self ..))
    by_cases last : names = []
    next =>
      rw [last, intercalate_singleton]
      exact start
    next =>
      have rest := ih fun name member => words name (List.mem_cons_of_mem _ member)
      rw [intercalate_cons last, List.length_append, List.length_append, List.length_cons]
      omega

theorem IsPath.solid {text : List Char} (path : IsPath text) : Solid text := by
  obtain ⟨opening, names, opened, some, words, rfl⟩ := path
  have colon : isBlank ':' = false := by decide
  have colons : ∀ c ∈ [':', ':'], isBlank c = false := by simp [colon]
  have nonempty : 0 < ([':', ':'].intercalate names).length :=
    Nat.lt_of_lt_of_le (List.length_pos_iff.2 some)
      (length_le_length_intercalate (fun name member => (words name member).ne_nil) _)
  refine ⟨List.append_ne_nil_of_right_ne_nil _ (List.length_pos_iff.1 nonempty), List.forall_mem_append.2 ⟨?_, ?_⟩⟩
  next =>
    simp only [List.mem_cons, List.not_mem_nil, or_false] at opened
    obtain rfl | rfl := opened
    next => nofun
    next => exact colons
  next =>
    exact plain_intercalate colons fun name member c inside =>
      not_isBlank_of_isIdentRest ((words name member).rest c inside)

theorem isModulePath_iff {value : String} : isModulePath value = true ↔ IsPath value.toList := by
  rw [isModulePath]
  generalize value.toList = text
  constructor
  next =>
    intro path
    split at path
    next cs =>
      obtain ⟨names, some, words, rfl⟩ := names_of_isPathFrom path
      exact ⟨[':', ':'], names, by simp, some, words, rfl⟩
    next =>
      obtain ⟨names, some, words, rfl⟩ := names_of_isPathFrom path
      exact ⟨[], names, by simp, some, words, rfl⟩
  next =>
    rintro ⟨opening, names, opened, some, words, rfl⟩
    have path := isPathFrom_of_names some words (Nat.le_succ_of_le
      (length_le_length_intercalate (fun name member => (words name member).ne_nil) [':', ':']))
    simp only [List.mem_cons, List.not_mem_nil, or_false] at opened
    obtain rfl | rfl := opened
    next =>
      rw [List.nil_append]
      split
      next rest colons =>
        -- An identifier does not begin with a colon.
        rw [colons, isPathFrom, Bool.and_eq_true] at path
        exact absurd path.1 (by decide)
      next => exact path
    next => exact path

end Options

end Protogen
