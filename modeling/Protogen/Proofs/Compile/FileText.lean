import Protogen.Compile.Run
import Protogen.Proofs.Code.Routines
import Protogen.Proofs.Code.Texts
import Protogen.Proofs.Code.Written
import Protogen.Proofs.Compile.Options
import Protogen.Proofs.Naming.ModuleNames
import Protogen.Proofs.Schema.Preorder

set_option autoImplicit false

namespace Protogen

namespace Code

open Target (Context)

-- Lines of a text

/-- A text on one line. -/
def Unbroken (text : String) : Prop :=
  ∀ c ∈ text.toList, c ≠ '\n' ∧ c ≠ '\r'

section Unbroken

variable {text text' : String} {cs rest : List Char}

theorem splitLines_cons {c : Char} {l : List Char} {ls : List (List Char)} (unbroken : c ≠ '\n' ∧ c ≠ '\r')
    (nonempty : cs ≠ []) (split : splitLines cs = l :: ls) : splitLines (c :: cs) = (c :: l) :: ls := by
  rw [splitLines.eq_def]
  simp [unbroken, split]

theorem splitLines_append (unbroken : ∀ c ∈ cs, c ≠ '\n' ∧ c ≠ '\r') :
    splitLines (cs ++ '\n' :: rest) = cs :: splitLines rest := by
  induction cs with
  | nil => simp [splitLines]
  | cons c cs ih =>
    rw [List.forall_mem_cons] at unbroken
    exact splitLines_cons unbroken.1 (by simp) (ih unbroken.2)

theorem splitLines_of_unbroken (unbroken : ∀ c ∈ cs, c ≠ '\n' ∧ c ≠ '\r') (nonempty : cs ≠ []) :
    splitLines cs = [cs] := by
  induction cs with
  | nil => exact absurd rfl nonempty
  | cons c cs ih =>
    rw [List.forall_mem_cons] at unbroken
    cases cs with
    | nil => simp [splitLines, unbroken.1]
    | cons c' cs =>
      have more := List.cons_ne_nil c' cs
      exact splitLines_cons unbroken.1 more (ih unbroken.2 more)

theorem splitLines_intercalate {lines : List String} (unbroken : ∀ l ∈ lines, Unbroken l)
    (last : lines.getLast? ≠ some "") :
    splitLines (String.intercalate "\n" lines).toList = lines.map String.toList := by
  induction lines with
  | nil => rfl
  | cons l lines ih =>
    rw [List.forall_mem_cons] at unbroken
    cases lines with
    | nil =>
      apply splitLines_of_unbroken unbroken.1
      exact fun empty => last (congrArg some (String.toList_eq_nil_iff.1 empty))
    | cons l' lines =>
      have rest := ih unbroken.2 last
      rw [String.intercalate_cons_cons, String.toList_append, String.toList_append, List.append_assoc]
      exact (splitLines_append unbroken.1).trans (congrArg _ rest)

theorem unbroken_append : Unbroken (text ++ text') ↔ Unbroken text ∧ Unbroken text' := by
  rw [Unbroken, String.toList_append, List.forall_mem_append]
  rfl

theorem unbroken_ofList (unbroken : cs.all (fun c => c != '\n' && c != '\r') = true) :
    Unbroken (String.ofList cs) := by
  intro c member
  rw [String.toList_ofList] at member
  simpa using List.all_eq_true.1 unbroken c member

theorem unbroken_indented {depth : Nat} : Unbroken (indented depth text) ↔ Unbroken text := by
  rw [indented]
  split
  next empty => rw [String.isEmpty_iff.1 empty]
  next =>
    rw [unbroken_append, and_iff_right]
    intro c member
    rw [String.toList_ofList] at member
    rw [List.eq_of_mem_replicate member]
    decide

theorem unbroken_joined {separator : String} (unbroken : Unbroken separator) (names : List String) :
    Unbroken (Naming.joined separator names) ↔ ∀ name ∈ names, Unbroken name := by
  induction names using List.twoStepInduction with
  | nil => exact iff_of_true nofun nofun
  | singleton name => rw [Naming.joined, String.intercalate_singleton, List.forall_mem_singleton]
  | cons_cons name name' names _ ih =>
    rw [Naming.joined, String.intercalate_cons_cons, ← Naming.joined, unbroken_append, unbroken_append, ih name',
      List.forall_mem_cons]
    simp [unbroken]

end Unbroken

-- Paths of the timestamp message

section Path

variable {files : List Schema.File} {index : Schema.Index} {name : String} {e : Schema.Entry}

theorem unbroken_modulePath (file : String) : Unbroken (Naming.modulePath file) := by
  refine (unbroken_joined (unbroken_ofList (by decide)) _).2 (List.forall_mem_map.2 fun segment _ c member => ?_)
  have word := Naming.moduleIdent_word c member
  constructor <;> (rintro rfl; exact absurd word (by decide))

-- The symbol of a type is made of names that its full name is made of too.
theorem unbroken_entry (built : Schema.Index.ofFiles files = .ok index) (found : index.find? name = some e)
    (unbroken : Unbroken name) : Unbroken e.modulePath ∧ Unbroken e.symbol := by
  obtain ⟨file, -, d, declared, rfl, rfl⟩ := (Schema.Index.find?_ofFiles built).1 found
  rw [Schema.File.declarations_eq_preorder, List.mem_map] at declared
  obtain ⟨placed, -, rfl⟩ := declared
  refine ⟨unbroken_modulePath file.name, ?_⟩
  rw [Schema.Placed.declared, Schema.File.fullNameAt, unbroken_append, unbroken_joined (unbroken_ofList (by decide))]
    at unbroken
  apply (unbroken_joined (unbroken_ofList (by decide)) placed.path).2
  exact fun name member => unbroken.2 name (List.mem_append_right _ member)

theorem unbroken_timestampPath {options : Options} {file : Schema.File} {helpers : List Helper} {path : String}
    (built : Schema.Index.ofFiles files = .ok index) (root : Unbroken options.moduleRoot)
    (found : timestampPath ⟨options, index, file⟩ helpers = .ok path) : Unbroken path := by
  rw [timestampPath] at found
  split at found
  next =>
    obtain ⟨e, looked, found⟩ := ok_of_bind found
    have timestamp : Unbroken Target.timestampName := unbroken_ofList (by decide)
    obtain ⟨module, symbol⟩ := unbroken_entry built (Schema.Index.get_eq_ok.1 looked) timestamp
    have colons : Unbroken "::" := unbroken_ofList (by decide)
    split at found <;> cases found <;> simp [unbroken_append, root, module, symbol, colons]
  next =>
    cases found
    exact nofun

end Path

namespace Helper

variable {path : String}

theorem unbroken_name (h : Helper) : Unbroken h.name := by
  cases h <;> (apply unbroken_ofList; decide)

theorem unbroken_secondsFromDate (long : LongOption) : Unbroken (secondsFromDate long).render := by
  cases long <;> (apply unbroken_ofList; decide)

theorem unbroken_secondsToWord (long : LongOption) : Unbroken (secondsToWord long).render := by
  cases long
  case number => apply unbroken_ofList; decide
  all_goals
    refine unbroken_append.2 ⟨unbroken_name _, ?_⟩
    apply unbroken_ofList
    decide

theorem unbroken_fillMarks (long : LongOption) (unbroken : Unbroken path) : Unbroken (fillMarks long path) := by
  intro c member
  rw [fillMarks, String.toList_ofList] at member
  obtain member | member := Text.mem_of_mem_replaceAll member
  · exact (Text.mem_of_mem_replaceAll member).elim (unbroken c) (unbroken_secondsFromDate long c)
  · exact unbroken_secondsToWord long c member

theorem unbroken_code (long : LongOption) {timestamp : String} (unbroken : Unbroken timestamp) (h : Helper) :
    ∀ l ∈ writtenOf 0 (h.code long timestamp), Unbroken l := by
  have called (h : Helper) : Unbroken (Piece.helper h).render := unbroken_name h
  cases h
  all_goals
    simp only [code, Code.block, writtenOf, Block.written, Line.render_append, Line.render_piece, Piece.render_text,
      List.cons_append, List.nil_append, List.append_nil, List.mem_cons, List.not_mem_nil, or_false, forall_eq_or_imp,
      forall_eq, and_true, true_and, unbroken_indented, unbroken_append, unbroken, called, unbroken_secondsFromDate,
      unbroken_secondsToWord]
    and_intros
    -- What is left are texts that stand in the code of the helper.
    all_goals
      apply unbroken_ofList
      decide

theorem getLast?_code (long : LongOption) (timestamp : String) (h : Helper) :
    (writtenOf 0 (h.code long timestamp)).getLast? = some "\x7d" := by
  cases h <;> simp [code, Code.block, writtenOf, Block.written]

end Helper

-- Files

section File

variable {ctx : Context} {w : Writer} {long : LongOption} {path : String}

def helpersCode (long : LongOption) (timestamp : String) (helpers : List Helper) : List Block :=
  helpers.flatMap fun h => .blank :: h.code long timestamp

-- Behind its items a file has the code of each helper that is needed, once.
theorem fileCode_eq {code : List Block} (generated : fileCode ctx = .ok code) : ∃ items path,
    fileItems ctx = .ok items ∧ timestampPath ctx (Helper.needed ctx.options.long (helpersOf items)) = .ok path ∧
      code = header ctx ++ items ++ helpersCode ctx.options.long (Helper.fillMarks ctx.options.long path)
        (Helper.needed ctx.options.long (helpersOf items)) := by
  obtain ⟨items, written, generated⟩ := ok_of_bind generated
  obtain ⟨appended, called, generated⟩ := ok_of_bind generated
  cases generated
  obtain ⟨path, found, called⟩ := ok_of_bind called
  cases called
  exact ⟨items, path, written, found, rfl⟩

theorem depth_run_stepsOf (w : Writer) (code : List Block) : (w.run (stepsOf code)).depth = w.depth := by
  rw [run_stepsOf]
  rfl

theorem Writer.run_lines (ground : w.depth = 0) (lines : List String) :
    w.run (lines.map fun l : String => .line l) = w.extended lines := by
  induction lines generalizing w with
  | nil => rfl
  | cons l lines ih =>
    have first : w.step (.line l) = w.extended [l] :=
      calc w.step (.line l)
        _ = w.extended [indented w.depth (l : Line).render] := rfl
        _ = w.extended [l] := by rw [ground, indented_zero, Line.render_piece, Piece.render]
    have rest := ih (w := w.extended [l]) ground
    rw [extended_extended] at rest
    rw [List.map_cons, run, List.foldl_cons, first]
    exact rest

theorem fragment_text (ground : w.depth = 0) (unbroken : Unbroken path) (h : Helper) :
    w.fragment (h.text long path) = w.run (stepsOf (h.code long (Helper.fillMarks long path))) := by
  have lines := Helper.unbroken_code long (Helper.unbroken_fillMarks long unbroken) h
  have last := Helper.getLast?_code long (Helper.fillMarks long path) h
  have text : h.text long path =
      String.intercalate "\n" (writtenOf 0 (h.code long (Helper.fillMarks long path))) := by
    rw [Helper.text, run_stepsOf, Writer.joined]
    simp [Writer.extended, Writer.empty]
  generalize h.code long (Helper.fillMarks long path) = code at *
  have split := splitLines_intercalate lines (by rw [last]; decide)
  calc w.fragment (h.text long path)
    _ = w.run ((writtenOf 0 code).map fun l : String => .line l) := by
      rw [Writer.fragment, fragmentSteps, text, split, List.map_map]
      simp [Function.comp_def]
    _ = w.extended (writtenOf 0 code) := Writer.run_lines ground _
    _ = w.run (stepsOf code) := by rw [run_stepsOf, ground]

theorem run_helpers (ground : w.depth = 0) (unbroken : Unbroken path) (helpers : List Helper) :
    w.run (helpers.flatMap fun h => .blank :: fragmentSteps (h.text long path)) =
      w.run (stepsOf (helpersCode long (Helper.fillMarks long path) helpers)) := by
  induction helpers generalizing w with
  | nil => rfl
  | cons h helpers ih =>
    have own : (w.step .blank).fragment (h.text long path) =
        (w.step .blank).run (stepsOf (h.code long (Helper.fillMarks long path))) :=
      fragment_text (w := w.step .blank) ground unbroken h
    have level : ((w.step .blank).run (stepsOf (h.code long (Helper.fillMarks long path)))).depth = 0 :=
      (depth_run_stepsOf _ _).trans ground
    rw [helpersCode, List.flatMap_cons, List.flatMap_cons, stepsOf_append, Writer.run_append, Writer.run_append]
    change ((w.step .blank).fragment (h.text long path)).run _ = ((w.step .blank).run (stepsOf _)).run _
    rw [own, ih level]
    rfl

end File

section Text

variable {files : List Schema.File} {index : Schema.Index} {options : Options}

-- The helpers of a file may be written line by line or in blocks, if the root of the modules is on one line.
theorem run_file {file : Schema.File} {helpers : List Helper} {path : String}
    (built : Schema.Index.ofFiles files = .ok index) (root : Unbroken options.moduleRoot)
    (found : timestampPath ⟨options, index, file⟩ helpers = .ok path) (long : LongOption) (items : List Block) :
    Writer.empty.run (stepsOf items ++ helpers.flatMap fun h => .blank :: fragmentSteps (h.text long path)) =
      Writer.empty.run (stepsOf (items ++ helpersCode long (Helper.fillMarks long path) helpers)) := by
  have ground : (Writer.empty.run (stepsOf items)).depth = 0 := depth_run_stepsOf _ _
  rw [stepsOf_append, Writer.run_append, Writer.run_append, run_helpers ground (unbroken_timestampPath built root found)]

theorem exists_writeFile (built : Schema.Index.ofFiles files = .ok index) {file : Schema.File} {code : List Block}
    (generated : fileCode ⟨options, index, file⟩ = .ok code) :
    ∃ steps, writeFile ⟨options, index, file⟩ = .ok steps ∧
      (Unbroken options.moduleRoot → Writer.empty.run steps = Writer.empty.run (stepsOf code)) := by
  obtain ⟨items, path, written, found, rfl⟩ := fileCode_eq generated
  refine ⟨stepsOf (header ⟨options, index, file⟩ ++ items) ++ (Helper.needed options.long (helpersOf items)).flatMap
    fun h => .blank :: fragmentSteps (h.text options.long path), ?_, fun root => run_file built root found options.long _⟩
  rw [writeFile_eq]
  exact bind_eq_ok.2 ⟨items, written, bind_eq_ok.2 ⟨path, found, rfl⟩⟩

theorem fileText_eq (built : Schema.Index.ofFiles files = .ok index) (root : Unbroken options.moduleRoot)
    (file : Schema.File) : fileText ⟨options, index, file⟩ = (fileCode ⟨options, index, file⟩).map textOf := by
  rw [fileText, writeFile_eq, fileCode]
  cases fileItems ⟨options, index, file⟩ with
  | error e => rfl
  | ok items =>
    cases found : timestampPath ⟨options, index, file⟩ (Helper.needed options.long (helpersOf items)) with
    | error e => simp [found, helperItems, bind, Except.bind, Except.map]
    | ok path =>
      have text := congrArg Writer.text (run_file built root found options.long (header ⟨options, index, file⟩ ++ items))
      simpa [found, helperItems, helpersCode, bind, Except.bind, Except.map, pure, Except.pure, textOf] using text

end Text

end Code

namespace Options

variable {text : String} {o : Options}

theorem solid_moduleRoot (parsed : parse text = .ok o) : Solid o.moduleRoot.toList := by
  obtain ⟨settings, -, describes⟩ := parse_eq_ok_iff.1 parsed
  by_cases given : Key.moduleRoot ∈ settings.map Setting.key
  next =>
    obtain ⟨s, member, own⟩ := List.mem_map.1 given
    have value := describes.given s member
    obtain ⟨key, text, v, denotes⟩ := s
    cases own
    obtain ⟨path, rfl⟩ := denotes
    cases value
    exact path.solid
  next =>
    have value : o.moduleRoot = "crate" := describes.default .moduleRoot given
    rw [value]
    decide

theorem unbroken_moduleRoot (parsed : parse text = .ok o) : Code.Unbroken o.moduleRoot := by
  intro c member
  have plain := (solid_moduleRoot parsed).plain c member
  constructor <;> (rintro rfl; exact absurd plain (by decide))

end Options

namespace Compile

open Schema (Index)

theorem indexed_eq_ok {descriptors : List Descriptor.File} {files : List Schema.File} {index : Index} :
    indexed descriptors = .ok (files, index) ↔
      descriptors.mapM Schema.File.ofDescriptor = .ok files ∧ Index.ofFiles files = .ok index := by
  simp only [indexed, bind_eq_ok, pure, Except.pure, Except.ok.injEq, Prod.mk.injEq]
  grind

theorem run_eq (descriptors : List Descriptor.File) (requested : List String) (parameter : String) :
    run descriptors requested parameter = do
      let options ← Options.parse parameter
      let (files, index) ← indexed descriptors
      Schema.verify index files
      let emitted := filesToEmit descriptors requested
      let outputs ← (files.filter fun f => emitted.contains f.name).mapM fun file => do
        return (⟨Naming.outputFile file.name, Code.textOf (← Code.fileCode ⟨options, index, file⟩)⟩ : OutputFile)
      match Code.moduleIndex? (outputs.map (·.name)) with
      | some modules => return outputs ++ [⟨"mod.rs", Code.textOf modules⟩]
      | none => return outputs := by
  rw [run]
  cases parsed : Options.parse parameter with
  | error e => rfl
  | ok options =>
    cases built : indexed descriptors with
    | error e => rfl
    | ok both =>
      obtain ⟨files, index⟩ := both
      have root := Options.unbroken_moduleRoot parsed
      have outputs (file : Schema.File) :
          (do return (⟨Naming.outputFile file.name, ← Code.fileText ⟨options, index, file⟩⟩ : OutputFile)) =
            (do return ⟨Naming.outputFile file.name, Code.textOf (← Code.fileCode ⟨options, index, file⟩)⟩) := by
        rw [Code.fileText_eq (indexed_eq_ok.1 built).2 root]
        cases Code.fileCode ⟨options, index, file⟩ <;> rfl
      change (Schema.verify index files >>= fun _ => List.mapM _ _ >>= _) =
        Schema.verify index files >>= fun _ => List.mapM _ _ >>= _
      refine bind_congr fun _ => ?_
      rw [funext outputs]
      refine bind_congr fun outputs => ?_
      rw [Code.indexText?_eq]
      cases Code.moduleIndex? (outputs.map (·.name)) <;> rfl

end Compile

end Protogen
