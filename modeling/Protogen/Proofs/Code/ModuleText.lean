import Protogen.Proofs.Code.ModuleTree
import Protogen.Proofs.Code.Outline
import Protogen.Proofs.Code.Texts
import Protogen.Proofs.Code.Written

set_option autoImplicit false

namespace Protogen.Code

open Naming (moduleIdent Plain)

-- What is read of pieces of text

-- The text stands between tokens, and holds these.
def Spells (cs : List Char) (ts : List Token) : Prop :=
  Place.between.scan cs = (.between, ts)

section Spells

variable {cs more done : List Char} {ts ts' : List Token} {l s : String}

theorem Spells.append (first : Spells cs ts) (second : Spells more ts') : Spells (cs ++ more) (ts ++ ts') := by
  rw [Spells, Place.scan_append, first, second]

theorem spells_blanks (n : Nat) : Spells (List.replicate n ' ') [] := by
  induction n with
  | zero => rfl
  | succ n ih => exact ih

theorem Spells.line (spells : Spells l.toList ts) (depth : Nat) : Spells ((indented depth l).toList ++ ['\n']) ts := by
  have ended : Spells ['\n'] [] := rfl
  rw [← ts.append_nil]
  refine Spells.append ?_ ended
  rw [indented]
  split
  next empty =>
    rw [String.isEmpty_iff.1 empty] at spells
    exact spells
  next =>
    rw [String.toList_append, String.toList_ofList]
    exact (spells_blanks _).append spells

theorem scan_literal (plain : ∀ c ∈ cs, c ≠ '"' ∧ c ≠ '\\' ∧ c ≠ '\r') :
    (Place.literal done).scan cs = (.literal (done ++ cs), []) := by
  induction cs generalizing done with
  | nil => simp
  | cons c cs ih =>
    rw [List.forall_mem_cons] at plain
    obtain ⟨⟨quote, escape, ending⟩, plain⟩ := plain
    simp [Place.scan, Place.next, quote, escape, ending, ih plain]

theorem scan_word (word : ∀ c ∈ cs, Naming.isWordChar c = true) :
    (Place.word done).scan cs = (.word (done ++ cs), []) := by
  induction cs generalizing done with
  | nil => simp
  | cons c cs ih =>
    rw [List.forall_mem_cons] at word
    simp [Place.scan, Place.next, word.1, ih word.2]

theorem spells_word {c : Char} (identifier : Naming.isIdentifier s = true) (other : Naming.isWordChar c = false)
    (rest : Spells (c :: cs) ts) : Spells (s.toList ++ c :: cs) (.word s :: ts) := by
  obtain ⟨word, ⟨x, first, -⟩, -⟩ := Naming.isIdentifier_iff.1 identifier
  obtain ⟨xs, chars⟩ : ∃ xs, s.toList = x :: xs := List.head?_eq_some_iff.1 first
  have whole : String.ofList (x :: xs) = s := by rw [← chars, String.ofList_toList]
  rw [chars, List.forall_mem_cons] at word
  have run : Place.between.scan (x :: xs) = (.word (x :: xs), []) := by
    simp [Place.scan, Place.next, Place.enter, word.1, scan_word word.2]
  -- The character behind the word ends it, and is read as it would be between tokens.
  rw [Spells, Place.scan] at rest
  rw [Spells, chars, Place.scan_append, run]
  simp only [Prod.ext_iff, Place.next, Place.scan, other] at rest ⊢
  simp [whole, rest]

def attributeTokens (place : String) : List Token :=
  [.sign '#', .sign '[', .word "path", .sign '=', .literal place, .sign ']']

theorem spells_attribute (plain : ∀ c ∈ s.toList, c ≠ '"' ∧ c ≠ '\\' ∧ c ≠ '\r') :
    Spells ("#[path = \"" ++ s ++ "\"]").toList (attributeTokens s) := by
  have opening : Place.between.scan "#[path = \"".toList =
      (.literal [], [.sign '#', .sign '[', .word "path", .sign '=']) := rfl
  have closing : (Place.literal s.toList).scan "\"]".toList = (.between, [.literal s, .sign ']']) := by
    rw [← String.ofList_toList (s := s), String.toList_ofList]
    rfl
  rw [Spells, String.toList_append, String.toList_append, Place.scan_append, Place.scan_append, opening,
    scan_literal plain, List.nil_append, closing]
  rfl

theorem spells_declaration (identifier : Naming.isIdentifier s = true) {c : Char} {cs : List Char}
    (other : Naming.isWordChar c = false) (rest : Spells (c :: cs) ts) :
    Spells ("pub mod ".toList ++ s.toList ++ c :: cs) (.word "pub" :: .word "mod" :: .word s :: ts) := by
  have opening : Spells "pub mod ".toList [.word "pub", .word "mod"] := rfl
  rw [List.append_assoc]
  exact opening.append (spells_word identifier other rest)

end Spells

namespace Module

mutual

def outline (name : String) : Module → Outline
  | file => .leaf (moduleIdent name) (name ++ ".rs")
  | directory children => .inner (moduleIdent name) name (outlines children)

def outlines : List (String × Module) → List Outline
  | [] => []
  | (name, m) :: rest => m.outline name :: outlines rest

end

def placeTokens (name place : String) : List Token :=
  if moduleIdent name = name then [] else attributeTokens place

mutual

def tokens (name : String) : Module → List Token
  | file => placeTokens name (name ++ ".rs") ++ [.word "pub", .word "mod", .word (moduleIdent name), .sign ';']
  | directory children => placeTokens name name ++
      (.word "pub" :: .word "mod" :: .word (moduleIdent name) :: .sign '\x7b' :: (tokensOf children ++ [.sign '\x7d']))

def tokensOf : List (String × Module) → List Token
  | [] => []
  | (name, m) :: rest => m.tokens name ++ tokensOf rest

end

def Readable (segment : String) : Prop :=
  segment ≠ "" ∧ Plain segment

def ended (lines : List String) : List Char :=
  lines.flatMap fun l => l.toList ++ ['\n']

section Texts

variable {level : List (String × Module)} {m : Module} {name place : String} {depth : Nat}

theorem ended_append (lines lines' : List String) : ended (lines ++ lines') = ended lines ++ ended lines' :=
  List.flatMap_append

theorem spells_cons {l : String} {lines : List String} {ts ts' : List Token} (first : Spells l.toList ts)
    (rest : Spells (ended lines) ts') : Spells (ended (indented depth l :: lines)) (ts ++ ts') :=
  (first.line depth).append rest

theorem spells_nil : Spells (ended []) [] :=
  rfl

theorem spells_place (plain : ∀ c ∈ place.toList, c ≠ '"' ∧ c ≠ '\\' ∧ c ≠ '\r') :
    Spells (ended (writtenOf depth (if moduleIdent name = name then []
      else [.line ("#[path = " ++ Piece.literal place ++ "]")]))) (placeTokens name place) := by
  rw [placeTokens]
  split
  next => exact spells_nil
  next =>
    have render : ("#[path = " ++ Piece.literal place ++ "]" : Line).render = "#[path = \"" ++ place ++ "\"]" := by
      rw [← String.toList_inj]
      simp [Piece.render]
    rw [writtenOf, Block.written, render, ← (attributeTokens place).append_nil]
    exact spells_cons (spells_attribute plain) spells_nil

theorem spells_all (depth : Nat) (children : ∀ e ∈ level, Spells (ended (writtenOf depth (e.2.code e.1))) (e.2.tokens e.1)) :
    Spells (ended (writtenOf depth (codeAll level))) (tokensOf level) := by
  induction level with
  | nil => exact spells_nil
  | cons e level ih =>
    rw [List.forall_mem_cons] at children
    rw [codeAll, writtenOf_append, ended_append]
    exact children.1.append (ih children.2)

theorem spells_code (depth : Nat) (sorted : m.Sorted Readable) (readable : Readable name) :
    Spells (ended (writtenOf depth (m.code name))) (m.tokens name) := by
  induction sorted generalizing name depth with
  | ofFile =>
    have identifier := Naming.isIdentifier_moduleIdent readable.1 readable.2.2
    have plain : ∀ c ∈ (name ++ ".rs").toList, c ≠ '"' ∧ c ≠ '\\' ∧ c ≠ '\r' := by
      rw [String.toList_append, List.forall_mem_append]
      exact ⟨readable.2.1, by simp⟩
    have declared : Spells ("pub mod " ++ moduleIdent name ++ ";").toList
        [.word "pub", .word "mod", .word (moduleIdent name), .sign ';'] := by
      rw [String.toList_append, String.toList_append]
      exact spells_declaration identifier rfl rfl
    have render : ("pub mod " ++ moduleIdent name ++ ";" : Line).render = "pub mod " ++ moduleIdent name ++ ";" := by
      simp [Piece.render]
    rw [code, writtenOf_append, ended_append]
    refine (spells_place plain).append ?_
    rw [writtenOf, Block.written, render]
    exact spells_cons declared spells_nil
  | @ofDirectory children keys parts inner ih =>
    have identifier := Naming.isIdentifier_moduleIdent readable.1 readable.2.2
    have opened : Spells ("pub mod " ++ moduleIdent name ++ " \x7b").toList
        [.word "pub", .word "mod", .word (moduleIdent name), .sign '\x7b'] := by
      rw [String.toList_append, String.toList_append]
      exact spells_declaration identifier rfl rfl
    have closed : Spells "\x7d".toList [.sign '\x7d'] := rfl
    have render : ("pub mod " ++ moduleIdent name : Line).render = "pub mod " ++ moduleIdent name := by
      simp [Piece.render]
    rw [code, writtenOf_append, ended_append]
    refine (spells_place readable.2.1).append ?_
    have inside := spells_all (depth + 1) fun e member => ih e member (depth + 1) (parts e member)
    rw [writtenOf, block, Block.written, render, writtenOf, List.append_nil, List.cons_append]
    refine spells_cons opened ?_
    rw [ended_append]
    exact inside.append (spells_cons closed spells_nil)

-- The text of the index spells the tokens of its modules.
theorem tokens?_moduleIndex {index : List Block} {names : List String} (sorted : (directory level).Sorted Readable)
    (built : ofFiles? names = some level) (generated : moduleIndex? names = some index) :
    tokens? (textOf index) = some (tokensOf level) := by
  rw [moduleIndex?, built] at generated
  cases generated
  obtain ⟨-, parts, inner⟩ := sorted_directory_iff.1 sorted
  have declared := spells_all 0 fun e member => spells_code 0 (inner e member) (parts e member)
  -- The header is a comment and an empty line.
  have header : Spells (ended ["// Code generated by protoc-gen-protoweave. DO NOT EDIT.", ""]) [] := rfl
  have text : (textOf ([.line "// Code generated by protoc-gen-protoweave. DO NOT EDIT.", .blank] ++
      codeAll level)).toList = ended ["// Code generated by protoc-gen-protoweave. DO NOT EDIT.", ""] ++
        ended (writtenOf 0 (codeAll level)) := by
    rw [toList_textOf (by simp [writtenOf, Block.written]), writtenOf_append, ← ended, ended_append]
    rfl
  have read := header.append declared
  rw [Spells, ← text] at read
  rw [tokens?, read]
  rfl

end Texts

-- The modules that the tokens declare

section Declarations

variable {level : List (String × Module)} {m : Module} {name place : String} {up : List (String × String × List Outline)}
  {above : List Outline} {ts : List Token}

theorem outlines_eq (level : List (String × Module)) : outlines level = level.map fun e => e.2.outline e.1 := by
  induction level with
  | nil => rfl
  | cons e level ih => rw [outlines, List.map_cons, ih]

theorem declarations?_place : declarations? up above none (placeTokens name place ++ ts) =
    declarations? up above (if moduleIdent name = name then none else some place) ts := by
  rw [placeTokens]
  split
  next => rfl
  next => simp [attributeTokens, declarations?]

theorem getD_place (name : String) (f : String → String) :
    (if moduleIdent name = name then none else some (f name)).getD (f (moduleIdent name)) = f name := by
  split
  next same => exact congrArg f same
  next => rfl

theorem declarations?_all (up : List (String × String × List Outline)) (above : List Outline) (ts : List Token)
    (children : ∀ e ∈ level, ∀ above ts, declarations? up above none (e.2.tokens e.1 ++ ts) =
      declarations? up (above ++ [e.2.outline e.1]) none ts) :
    declarations? up above none (tokensOf level ++ ts) = declarations? up (above ++ outlines level) none ts := by
  induction level generalizing above with
  | nil => rw [tokensOf, outlines, List.nil_append, List.append_nil]
  | cons e level ih =>
    rw [List.forall_mem_cons] at children
    rw [tokensOf, List.append_assoc, children.1, ih _ children.2, outlines, List.append_assoc, List.singleton_append]

theorem declarations?_tokens (sorted : m.Sorted Readable) (readable : Readable name) :
    declarations? up above none (m.tokens name ++ ts) = declarations? up (above ++ [m.outline name]) none ts := by
  induction sorted generalizing name up above ts with
  | ofFile =>
    have identifier := Naming.isIdentifier_moduleIdent readable.1 readable.2.2
    -- With an attribute or without, the module comes to be in the file of its name.
    have own := getD_place name (· ++ ".rs")
    rw [tokens, List.append_assoc, declarations?_place, outline]
    simp [declarations?, identifier, own]
  | @ofDirectory children keys parts inner ih =>
    have identifier := Naming.isIdentifier_moduleIdent readable.1 readable.2.2
    have inside {up : List (String × String × List Outline)} {ts : List Token} :=
      declarations?_all up [] ts fun e member above ts => ih e member (parts e member)
    have own := getD_place name id
    rw [id_eq, id_eq] at own
    rw [tokens, List.append_assoc, declarations?_place, outline]
    simp [declarations?, identifier, own, inside]

end Declarations

theorem outlines?_moduleIndex {index : List Block} {names : List String} {level : List (String × Module)}
    (sorted : (directory level).Sorted Readable) (built : ofFiles? names = some level)
    (generated : moduleIndex? names = some index) : outlines? (textOf index) = some (outlines level) := by
  obtain ⟨-, parts, inner⟩ := sorted_directory_iff.1 sorted
  have all := declarations?_all [] [] [] fun e member above ts =>
    declarations?_tokens (inner e member) (parts e member)
  rw [List.append_nil, List.nil_append] at all
  rw [outlines?, tokens?_moduleIndex sorted built generated, Option.bind_some, all]
  rfl

-- The leaves of what is declared

def declaredAt (path : List String) : List String × String :=
  (path.map moduleIdent, Naming.joined "/" path ++ ".rs")

theorem joined_cons {separator name : String} {path : List String} (some : path ≠ []) :
    Naming.joined separator (name :: path) = name ++ separator ++ Naming.joined separator path := by
  obtain ⟨s, path, rfl⟩ := List.exists_cons_of_ne_nil some
  exact String.intercalate_cons_cons

theorem ne_nil_of_mem_leavesOf {level : List (String × Module)} : ∀ path ∈ leavesOf level, path ≠ [] := by
  rw [leavesOf_eq]
  intro path member
  obtain ⟨e, -, member⟩ := List.mem_flatMap.1 member
  obtain ⟨path, -, rfl⟩ := List.mem_map.1 member
  exact List.cons_ne_nil _ _

mutual

theorem leaves_outline (name : String) (m : Module) :
    (m.outline name).leaves = m.leaves.map fun path => declaredAt (name :: path) := by
  match m with
  | file => rfl
  | directory children =>
    rw [outline, Outline.leaves, leaves_outlines children, leaves, List.map_map]
    refine List.map_congr_left fun path member => ?_
    simp only [Function.comp_def, declaredAt, List.map_cons, joined_cons (ne_nil_of_mem_leavesOf path member),
      String.append_assoc]

theorem leaves_outlines (level : List (String × Module)) :
    Outline.leavesOf (outlines level) = (leavesOf level).map declaredAt := by
  match level with
  | [] => rfl
  | (name, m) :: rest =>
    rw [outlines, Outline.leavesOf, leaves_outline name m, leaves_outlines rest, leavesOf, List.map_append,
      List.map_map]
    rfl

end

end Module

end Protogen.Code
