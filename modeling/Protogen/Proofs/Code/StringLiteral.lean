import Protogen.Code.Line

set_option autoImplicit false

namespace Protogen.Code.StringLiteral

-- The text of a file as it is read: the end of a line is one character.
def newlines : List Char → List Char
  | '\r' :: '\n' :: cs => '\n' :: newlines cs
  | c :: cs => c :: newlines cs
  | [] => []

def hexDigit? (c : Char) : Option Nat :=
  if '0' ≤ c ∧ c ≤ '9' then some (c.toNat - '0'.toNat)
  else if 'a' ≤ c ∧ c ≤ 'f' then some (c.toNat - 'a'.toNat + 10)
  else if 'A' ≤ c ∧ c ≤ 'F' then some (c.toNat - 'A'.toNat + 10)
  else none

inductive State where
  | plain
  -- After a backslash.
  | escape
  /-- After the letter of an escape of two digits, and after the first of them. -/
  | byte
  | secondDigit (first : Nat)
  -- After the letter of an escape of a code point, and between its braces, after some digits.
  | point
  | digits (value count : Nat)
  -- After a backslash that ends a line, where blanks are left out.
  | continued

inductive Step where
  -- Reading goes on, after a character of the value if one is complete.
  | next (s : State) (char : Option Char)
  /-- The literal ends. -/
  | close

def plainStep? : Char → Option Step
  | '"' => some .close
  | '\\' => some (.next .escape none)
  | '\r' => none
  | c => some (.next .plain (some c))

def escapeStep? : Char → Option Step
  | 'n' => some (.next .plain (some '\n'))
  | 'r' => some (.next .plain (some '\r'))
  | 't' => some (.next .plain (some '\t'))
  | '0' => some (.next .plain (some '\x00'))
  | '\\' => some (.next .plain (some '\\'))
  | '"' => some (.next .plain (some '"'))
  | '\x27' => some (.next .plain (some '\x27'))
  | 'x' => some (.next .byte none)
  | 'u' => some (.next .point none)
  | '\n' => some (.next .continued none)
  | _ => none

def State.step? (s : State) (c : Char) : Option Step :=
  match s with
  | plain => plainStep? c
  | escape => escapeStep? c
  | byte =>
    match hexDigit? c with
    | some d => if d < 8 then some (.next (.secondDigit d) none) else none
    | none => none
  | secondDigit first => (hexDigit? c).map fun d => .next .plain (some (Char.ofNat (16 * first + d)))
  | point => if c = '\x7b' then some (.next (.digits 0 0) none) else none
  | digits value count =>
    if c = '\x7d' then
      if 0 < count ∧ value.isValidChar then some (.next .plain (some (Char.ofNat value))) else none
    else if c = '_' then
      if 0 < count then some (.next (.digits value count) none) else none
    else
      match hexDigit? c with
      | some d => if count < 6 then some (.next (.digits (16 * value + d) (count + 1)) none) else none
      | none => none
  | continued =>
    if c = ' ' ∨ c = '\t' ∨ c = '\n' ∨ c = '\r' then some (.next .continued none) else plainStep? c

def read? : State → List Char → Option (List Char × List Char)
  | _, [] => none
  | s, c :: cs =>
    match s.step? c with
    | some (.next s char) => (read? s cs).map fun (value, rest) => (char.toList ++ value, rest)
    | some .close => some ([], cs)
    | none => none

def value? (text : List Char) : Option (List Char × List Char) :=
  match newlines text with
  | '"' :: cs => read? .plain cs
  | _ => none

section Reading

variable {s : State} {c : Char} {cs value rest : List Char}

theorem length_read (reading : read? s cs = some (value, rest)) : value.length + rest.length < cs.length := by
  induction cs generalizing s value with
  | nil => cases reading
  | cons c cs ih =>
    rw [read?] at reading
    split at reading
    next s' char _ =>
      obtain ⟨⟨value', rest'⟩, later, same⟩ := Option.map_eq_some_iff.1 reading
      cases same
      have shorter := ih later
      have one : char.toList.length ≤ 1 := by cases char <;> simp
      rw [List.length_append, List.length_cons]
      omega
    next =>
      cases reading
      simp
    next => cases reading

def IsVerbatim (c : Char) : Prop :=
  c ≠ '"' ∧ c ≠ '\\' ∧ c ≠ '\r'

instance (c : Char) : Decidable (IsVerbatim c) :=
  inferInstanceAs (Decidable (_ ∧ _))

theorem plainStep?_of_verbatim (verbatim : IsVerbatim c) : plainStep? c = some (.next .plain (some c)) := by
  obtain ⟨quote, backslash, control⟩ := verbatim
  rw [plainStep?.eq_def]
  split <;> first | contradiction | rfl

theorem eq_of_plainStep? {char : Option Char} (step : plainStep? c = some (.next s char)) :
    s = .escape ∧ char = none ∨ s = .plain ∧ char = some c ∧ IsVerbatim c := by
  rw [plainStep?.eq_def] at step
  split at step
  next => cases step
  next =>
    cases step
    exact .inl ⟨rfl, rfl⟩
  next => cases step
  next quote backslash control =>
    cases step
    exact .inr ⟨rfl, rfl, quote, backslash, control⟩

theorem read_verbatim (verbatim : ∀ c ∈ value, IsVerbatim c) :
    read? .plain (value ++ '"' :: rest) = some (value, rest) := by
  induction value with
  | nil => rfl
  | cons c value ih =>
    obtain ⟨first, verbatim⟩ := List.forall_mem_cons.1 verbatim
    rw [List.cons_append, read?, State.step?, plainStep?_of_verbatim first]
    simp only [ih verbatim]
    rfl

-- A literal that has as many characters as stand in it has these.
theorem verbatim_of_read (reading : read? .plain cs = some (value, rest))
    (all : cs.length = value.length + rest.length + 1) : ∀ c ∈ value, IsVerbatim c := by
  induction cs generalizing value with
  | nil => cases reading
  | cons c cs ih =>
    rw [List.length_cons] at all
    rw [read?, State.step?] at reading
    split at reading
    next s' char step =>
      obtain ⟨⟨value', rest'⟩, later, same⟩ := Option.map_eq_some_iff.1 reading
      cases same
      obtain ⟨rfl, rfl⟩ | ⟨rfl, rfl, verbatim⟩ := eq_of_plainStep? step
      · -- An escape takes a character more than it gives.
        have shorter := length_read later
        simp only [Option.toList_none, List.nil_append] at all
        omega
      · rw [Option.toList_some, List.singleton_append] at all ⊢
        rw [List.length_cons] at all
        exact List.forall_mem_cons.2 ⟨verbatim, ih later (by omega)⟩
    next =>
      cases reading
      nofun
    next => cases reading

end Reading

section Newlines

variable {cs : List Char}

theorem newlines_cons {c : Char} (other : c ≠ '\r') : newlines (c :: cs) = c :: newlines cs := by
  rw [newlines]
  rintro _ rfl
  exact absurd rfl other

theorem length_newlines (cs : List Char) : (newlines cs).length ≤ cs.length := by
  induction cs using newlines.induct with
  | case1 cs ih =>
    rw [newlines, List.length_cons, List.length_cons, List.length_cons]
    omega
  | case2 c cs _ ih =>
    rw [newlines, List.length_cons, List.length_cons]
    · omega
    · assumption
  | case3 => exact Nat.le_refl _

-- A quotation mark is in no end of a line.
theorem newlines_append (cs after : List Char) :
    newlines (cs ++ '"' :: after) = newlines cs ++ '"' :: newlines after := by
  induction cs using newlines.induct with
  | case1 cs ih => rw [List.cons_append, List.cons_append, newlines, ih, newlines, List.cons_append]
  | case2 c cs other ih =>
    rw [newlines, List.cons_append, newlines, ih]
    · rfl
    · rintro cs' rfl same
      cases cs with
      | nil => cases same
      | cons c' cs =>
        obtain ⟨rfl, -⟩ := List.cons.inj same
        exact other cs rfl rfl
    · exact other
  | case3 => exact newlines_cons (by decide)

end Newlines

def quoted (text : String) : List Char :=
  '"' :: text.toList ++ ['"']

theorem toList_literal (text : String) : (Piece.literal text).render.toList = quoted text := by
  simp [Piece.render, quoted]

/-- Between quotation marks, and in front of the other text, the text is a literal of itself. -/
def Denotes (text : String) (after : List Char) : Prop :=
  value? (quoted text ++ after) = some (text.toList, newlines after)

/-- No character of the text is a quotation mark, a backslash or a carriage return. -/
def Verbatim (text : String) : Prop :=
  ∀ c ∈ text.toList, IsVerbatim c

instance (text : String) : Decidable (Verbatim text) :=
  List.decidableBAll IsVerbatim text.toList

theorem value_quoted (text : String) (after : List Char) :
    value? (quoted text ++ after) = read? .plain (newlines text.toList ++ '"' :: newlines after) := by
  have whole : quoted text ++ after = '"' :: (text.toList ++ '"' :: after) := by simp [quoted]
  rw [value?, whole, newlines_cons (by decide), newlines_append]
  rfl

theorem newlines_of_verbatim {cs : List Char} (verbatim : ∀ c ∈ cs, IsVerbatim c) : newlines cs = cs := by
  induction cs with
  | nil => rfl
  | cons c cs ih =>
    obtain ⟨first, verbatim⟩ := List.forall_mem_cons.1 verbatim
    rw [newlines_cons first.2.2, ih verbatim]

-- A text is a literal of itself if and only if it has none of the characters that stand for something else there.
theorem denotes_iff {text : String} {after : List Char} : Denotes text after ↔ Verbatim text := by
  rw [Denotes, value_quoted]
  constructor
  · intro reading
    have longer := length_read reading
    have shorter := length_newlines text.toList
    refine verbatim_of_read reading ?_
    rw [List.length_append, List.length_cons] at longer ⊢
    omega
  · intro verbatim
    rw [newlines_of_verbatim verbatim, read_verbatim verbatim]

example : value? "\"a\\u\x7b2014\x7d\\x62\\\n  c\" => 1,".toList = some ("a\u2014bc".toList, " => 1,".toList) := by
  decide +kernel

end Protogen.Code.StringLiteral
