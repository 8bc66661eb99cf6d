import Mathlib.Order.Bounds.Basic
import Protogen.Proofs.Code.Literals
import Protogen.Proofs.Code.Written
import Protogen.Proofs.Compile.Generation

set_option autoImplicit false

namespace Protogen

namespace Code

open Target (BatchMethod Context Enumeration Field Method Service Struct)

namespace Helper

theorem isLeast_needed (long : LongOption) (called : List Helper) :
    IsLeast {set : Set Helper | (∀ h ∈ called, h ∈ set) ∧ Closed long set} {r | r ∈ needed long called} := by
  refine ⟨⟨fun h member => mem_needed_iff.2 ⟨h, member, mem_closure_self⟩, fun r needs r' required => ?_⟩, ?_⟩
  · obtain ⟨h, member, callee⟩ := mem_needed_iff.1 needs
    exact mem_needed_iff.2 ⟨h, member, requires_subset_closure long h r callee r' required⟩
  · rintro set ⟨includes, closed⟩ r needs
    obtain ⟨h, member, callee⟩ := mem_needed_iff.1 needs
    exact closed.closure_subset (includes h member) r callee

theorem needed_eq (long : LongOption) (called : List Helper) :
    needed long called = all.filter (called.flatMap (closure long)).contains := by
  refine List.filter_congr fun r _ => Bool.eq_iff_iff.2 ?_
  have needs : r ∈ needed long called ↔ _ := mem_needed_iff
  rw [needed, List.mem_filter, and_iff_right (mem_all r)] at needs
  rw [needs]
  simp

theorem nodup_needed (long : LongOption) (called : List Helper) : (needed long called).Nodup :=
  List.Nodup.filter _ (by decide)

theorem helpersOf_code (long : LongOption) (timestamp : String) (h : Helper) :
    helpersOf (h.code long timestamp) = h.requires long := by
  cases long <;> cases h <;> rfl

theorem name_injective : Function.Injective name := by
  intro h h'
  cases h <;> cases h' <;> decide

end Helper

-- Functions

-- The name of the function whose definition begins with a line.
def function? (line : String) : Option String :=
  match line.toList with
  | 'f' :: 'n' :: ' ' :: rest => some (String.ofList (rest.takeWhile fun c => c != '(' && c != '<'))
  | _ => none

-- The functions that code defines outside of items, by the lines that it writes. What stands inside of an item is
-- indented.
def functions (code : List Block) : List String :=
  (Writer.empty.run (stepsOf code)).lines.reverse.filterMap function?

theorem functions_eq (code : List Block) : functions code = (writtenOf 0 code).filterMap function? := by
  rw [functions, run_stepsOf]
  simp [Writer.extended, Writer.empty]

def Block.functions (b : Block) : List String :=
  (b.written 0).filterMap function?

theorem function?_indented (depth : Nat) (text : String) : function? (indented (depth + 1) text) = none := by
  rw [indented]
  split
  next => rfl
  next => simp [function?, Nat.mul_add, List.replicate_succ]

mutual

theorem Block.filterMap_written (depth : Nat) (b : Block) : (b.written (depth + 1)).filterMap function? = [] := by
  match b with
  | .line l => simp [Block.written, function?_indented]
  | .blank => rfl
  | .block header body closer => simp [Block.written, function?_indented, filterMap_writtenOf (depth + 1) body]
  | .hang opener body closer => simp [Block.written, function?_indented, filterMap_writtenOf (depth + 1) body]

theorem filterMap_writtenOf (depth : Nat) (code : List Block) :
    (writtenOf (depth + 1) code).filterMap function? = [] := by
  match code with
  | [] => rfl
  | b :: bs => rw [writtenOf, List.filterMap_append, b.filterMap_written, filterMap_writtenOf depth bs, List.append_nil]

end

section Functions

variable {l : Line} {b : Block} {code code' body : List Block} {closer : String}

@[simp]
theorem functions_nil : functions [] = [] :=
  rfl

@[simp]
theorem functions_cons : functions (b :: code) = b.functions ++ functions code := by
  rw [functions_eq, functions_eq, writtenOf, List.filterMap_append, Block.functions]

@[simp]
theorem functions_append : functions (code ++ code') = functions code ++ functions code' := by
  simp only [functions_eq, writtenOf_append, List.filterMap_append]

theorem functions_flatMap {α : Type} (f : α → List Block) (as : List α) :
    functions (as.flatMap f) = as.flatMap fun a => functions (f a) := by
  induction as with
  | nil => rfl
  | cons a as ih => rw [List.flatMap_cons, List.flatMap_cons, functions_append, ih]

theorem filterMap_line (line : String) (lines : List String) :
    (line :: lines).filterMap function? = (function? line).toList ++ lines.filterMap function? := by
  rw [List.filterMap_cons]
  cases function? line <;> rfl

@[simp]
theorem Block.functions_line : (Block.line l).functions = (function? l.render).toList := by
  rw [functions, written, indented_zero, filterMap_line, List.filterMap_nil, List.append_nil]

@[simp]
theorem Block.functions_blank : Block.blank.functions = [] :=
  rfl

@[simp]
theorem Block.functions_block : (Block.block l body closer).functions =
    (function? (l.render ++ " \x7b")).toList ++ (function? closer).toList := by
  rw [functions, written, List.cons_append, filterMap_line, List.filterMap_append, filterMap_writtenOf, indented_zero,
    indented_zero, filterMap_line, List.filterMap_nil, List.nil_append, List.append_nil]

@[simp]
theorem Block.functions_hang : (Block.hang l body closer).functions =
    (function? l.render).toList ++ (function? closer).toList := by
  rw [functions, written, List.cons_append, filterMap_line, List.filterMap_append, filterMap_writtenOf, indented_zero,
    indented_zero, filterMap_line, List.filterMap_nil, List.nil_append, List.append_nil]

end Functions

@[simp]
theorem functions_block (header : Line) (body : List Block) :
    (block header body).functions = (function? (header.render ++ " \x7b")).toList :=
  Block.functions_block.trans (List.append_nil _)

-- A text begins with a letter that no definition begins with.
def Apart (text : String) : Prop :=
  ∃ c cs, text.toList = c :: cs ∧ c ≠ 'f'

theorem apart_ofList {c : Char} {cs : List Char} (other : c ≠ 'f') : Apart (String.ofList (c :: cs)) :=
  ⟨c, cs, String.toList_ofList, other⟩

theorem Apart.function? {text : String} (apart : Apart text) : function? text = none := by
  obtain ⟨c, cs, start, other⟩ := apart
  rw [Code.function?, start]
  split
  next same => exact absurd (List.head_eq_of_cons_eq same) other
  next => rfl

theorem Apart.function?_append {text : String} (apart : Apart text) (more : String) :
    Code.function? (text ++ more) = none := by
  obtain ⟨c, cs, start, other⟩ := apart
  exact Apart.function? ⟨c, cs ++ more.toList, by rw [String.toList_append, start, List.cons_append], other⟩

@[simp]
theorem functions_nameAttribute (symbol : String) : functions (nameAttribute symbol) = [] := by
  rw [nameAttribute]
  split
  next => simp (disch := (apply apart_ofList; decide)) [Apart.function?]
  next => rfl

@[simp]
theorem functions_structWith (symbol : String) (members : List Block) : (structWith symbol members).functions = [] := by
  rw [structWith]
  split <;> simp (disch := (apply apart_ofList; decide)) [String.append_assoc, Apart.function?_append]

@[simp]
theorem functions_choiceItem (symbol : String) (variants : List Block) : functions (choiceItem symbol variants) = [] := by
  simp (disch := (apply apart_ofList; decide)) [choiceItem, String.append_assoc, Apart.function?,
    Apart.function?_append]

theorem functions_messageItems (options : Options) (s : Struct) : functions (messageItems options s) = [] := by
  simp (disch := (apply apart_ofList; decide)) [messageItems, structItem, defaultImpl, messageImpl, jsonImpl,
    partialItem, fromPartialImpl, apply_ite functions, functions_flatMap, String.append_assoc, Apart.function?,
    Apart.function?_append]

theorem functions_enumItem (options : Options) (e : Enumeration) : functions (enumItem options e) = [] := by
  simp (disch := (apply apart_ofList; decide)) [enumItem, variantEnum, numberEnum, derives, apply_ite functions,
    String.append_assoc, Apart.function?,
    Apart.function?_append]

theorem functions_serviceItems (options : Options) (s : Service) : functions (serviceItems options s) = [] := by
  rw [serviceItems]
  cases options.client <;> simp (disch := (apply apart_ofList; decide)) [serviceTrait, rpcClient, grpcClient,
    clientImpl, methodDescriptor, functions_flatMap, List.map_eq_flatMap, String.append_assoc, Apart.function?,
    Apart.function?_append]

theorem functions_header (ctx : Context) : functions (header ctx) = [] := by
  simp (disch := (apply apart_ofList; decide)) [header, String.append_assoc, Apart.function?,
    Apart.function?_append]

theorem function?_ofList {cs : List Char} {name : String}
    (taken : String.ofList (cs.takeWhile fun c => c != '(' && c != '<') = name) :
    function? (String.ofList ('f' :: 'n' :: ' ' :: cs)) = some name := by
  rw [function?, String.toList_ofList]
  exact congrArg some taken

theorem function?_ofList_append {cs : List Char} {name more : String}
    (taken : String.ofList ((cs ++ more.toList).takeWhile fun c => c != '(' && c != '<') = name) :
    function? (String.ofList ('f' :: 'n' :: ' ' :: cs) ++ more) = some name := by
  rw [← String.ofList_toList (s := more), ← String.ofList_append]
  exact function?_ofList taken

@[simp]
theorem functions_helper (long : LongOption) (timestamp : String) (h : Helper) :
    functions (h.code long timestamp) = [h.name] := by
  cases h
  case longFromJson | longFromString | base64FromBytes | bytesFromBase64 | isoFromJson =>
    simp [Helper.code, Helper.name]
    exact function?_ofList rfl
  case longFromBigint =>
    have name : function? "fn long_from_bigint<T>(value: &::protoweave::num_bigint::BigInt) -> Result<T, CodecError>" =
      some "long_from_bigint" := function?_ofList rfl
    simp (disch := (apply apart_ofList; decide)) [Helper.code, Helper.name, name, Apart.function?]
  case dateFromTimestamp =>
    have name : function? "fn date_from_timestamp(" = some "date_from_timestamp" := function?_ofList rfl
    simp (disch := (apply apart_ofList; decide)) [Helper.code, Helper.name, name, String.append_assoc,
      Apart.function?_append]
  all_goals
    simp [Helper.code, Helper.name, String.append_assoc]
    exact function?_ofList_append rfl

-- Calls

@[simp]
def Piece.helper? : Piece → Option Helper
  | helper h => some h
  | _ => none

theorem helpersOf_eq (code : List Block) : helpersOf code = gathered Piece.helper? code :=
  rfl

section Gathered

variable {α β : Type} {pick : Piece → Option α} {l l' : Line} {b : Block} {code body : List Block} {closer : String}

def Line.gathered (pick : Piece → Option α) (l : Line) : List α :=
  l.pieces.filterMap pick

@[simp]
theorem Line.gathered_append : (l ++ l').gathered pick = l.gathered pick ++ l'.gathered pick :=
  List.filterMap_append ..

@[simp]
theorem Line.gathered_piece (p : Piece) : Line.gathered pick ⟨[p]⟩ = (pick p).toList := by
  rw [Line.gathered, List.filterMap_cons]
  cases pick p <;> rfl

def Block.gathered (pick : Piece → Option α) (b : Block) : List α :=
  Code.gathered pick [b]

@[simp]
theorem gathered_cons : gathered pick (b :: code) = b.gathered pick ++ gathered pick code :=
  gathered_append [b] code

@[simp]
theorem Block.gathered_line : (Block.line l).gathered pick = l.gathered pick := by
  rw [Block.gathered, Code.gathered_line, gathered_nil, List.append_nil, Line.gathered]

@[simp]
theorem Block.gathered_blank : Block.blank.gathered pick = [] :=
  rfl

@[simp]
theorem Block.gathered_block :
    (Block.block l body closer).gathered pick = l.gathered pick ++ Code.gathered pick body := by
  simp [Block.gathered, Code.gathered, Line.gathered, linesOf, Block.lines]

@[simp]
theorem Block.gathered_hang :
    (Block.hang l body closer).gathered pick = l.gathered pick ++ Code.gathered pick body := by
  simp [Block.gathered, Code.gathered, Line.gathered, linesOf, Block.lines]

@[simp]
theorem gathered_braces : (block l body).gathered pick = l.gathered pick ++ gathered pick body :=
  Block.gathered_block

@[simp]
theorem gathered_mapped (f : β → Block) (bs : List β) :
    gathered pick (bs.map f) = bs.flatMap fun b => (f b).gathered pick :=
  gathered_map f bs

end Gathered

theorem helpersOf_append (code code' : List Block) : helpersOf (code ++ code') = helpersOf code ++ helpersOf code' :=
  gathered_append code code'

theorem helpersOf_flatMap {α : Type} (f : α → List Block) (as : List α) :
    helpersOf (as.flatMap f) = as.flatMap fun a => helpersOf (f a) :=
  gathered_flatMap f as

def codecs (options : Options) (s : Struct) : List Block :=
  (if options.outputEncode then messageImpl s else []) ++ if options.outputJson then jsonImpl s else []

section Calls

@[simp]
theorem gathered_nameAttribute (symbol : String) : gathered Piece.helper? (nameAttribute symbol) = [] := by
  rw [nameAttribute]
  split <;> simp

@[simp]
theorem gathered_structWith (symbol : String) (members : List Block) :
    (structWith symbol members).gathered Piece.helper? = gathered Piece.helper? members := by
  cases members <;> simp [structWith]

@[simp]
theorem gathered_choiceItem (symbol : String) (variants : List Block) :
    gathered Piece.helper? (choiceItem symbol variants) = gathered Piece.helper? variants := by
  simp [choiceItem]

@[simp]
theorem gathered_structItem (s : Struct) : gathered Piece.helper? (structItem s) = [] := by
  simp [structItem, gathered_flatMap]

@[simp]
theorem gathered_defaultImpl (s : Struct) : gathered Piece.helper? (defaultImpl s) = [] := by
  rw [defaultImpl]
  split <;> simp

@[simp]
theorem gathered_partialItem (s : Struct) : gathered Piece.helper? (partialItem s) = [] := by
  simp [partialItem, gathered_flatMap]

@[simp]
theorem gathered_assign (f : Field) : (assign f).gathered Piece.helper? = [] := by
  simp [assign]

@[simp]
theorem gathered_fromPartialImpl (s : Struct) : gathered Piece.helper? (fromPartialImpl s) = [] := by
  rw [fromPartialImpl]
  split <;> simp [assignMember, assignUnion]

-- Of the items of a message, the codecs alone call helpers.
theorem helpersOf_messageItems (options : Options) (s : Struct) :
    helpersOf (messageItems options s) = helpersOf (codecs options s) := by
  simp [helpersOf_eq, messageItems, codecs, apply_ite (gathered Piece.helper?)]

theorem helpersOf_enumItem (options : Options) (e : Enumeration) : helpersOf (enumItem options e) = [] := by
  rw [helpersOf_eq, enumItem]
  split
  next => cases options.jsonEnums <;> simp [variantEnum, derives, nameFn, nameArms, gathered_flatMap]
  next => cases options.jsonEnums <;> simp [numberEnum, derives, nameFn, nameArms, Line.braced, gathered_flatMap]

theorem gathered_intersperse (code : List Block) :
    gathered Piece.helper? (code.intersperse .blank) = gathered Piece.helper? code := by
  induction code using List.twoStepInduction with
  | nil => rfl
  | singleton b => rfl
  | cons_cons b b' code _ ih => simpa using ih b'

@[simp]
theorem gathered_serviceTrait (s : Service) : (serviceTrait s).gathered Piece.helper? = [] := by
  simp [serviceTrait, provided, bulkRequest, gathered_flatMap]

theorem gathered_clientImpl (s : Service) {body : Method → List Block}
    (each : ∀ m, gathered Piece.helper? (body m) = []) : (clientImpl s body).gathered Piece.helper? = [] := by
  simp [clientImpl, gathered_intersperse, gathered_flatMap, loaded, each]

theorem gathered_rpcClient (s : Service) : gathered Piece.helper? (rpcClient s) = [] := by
  simp only [rpcClient, gathered_cons]
  rw [gathered_clientImpl]
  · simp [loaderMember, makeLoader, bulkRequest, newClient]
  · intro m
    rw [rpcCall]
    cases m.clientStreaming <;> cases m.serverStreaming <;> simp

theorem gathered_grpcClient (s : Service) : gathered Piece.helper? (grpcClient s) = [] := by
  simp only [grpcClient, gathered_append, gathered_cons]
  rw [gathered_clientImpl]
  · simp [loaderMember, makeLoader, bulkRequest, newClient, methodDescriptor]
  · intro m
    rw [grpcCall]
    cases m.clientStreaming <;> cases m.serverStreaming <;> simp

theorem helpersOf_serviceItems (options : Options) (s : Service) : helpersOf (serviceItems options s) = [] := by
  rw [helpersOf_eq, serviceItems]
  cases options.client <;> simp [gathered_rpcClient, gathered_grpcClient]

theorem helpersOf_header (ctx : Context) : helpersOf (header ctx) = [] := by
  simp [helpersOf_eq, header]

end Calls

-- Files

def declaredCodecs (ctx : Context) (d : Schema.Declared) : Except CompileError (List Block) :=
  match d.declaration with
  | .enum _ => .ok []
  | .message m => do return codecs ctx.options (← Struct.ofMessage ctx d.fullName d.symbol m)

def fileCodecs (ctx : Context) : Except CompileError (List Block) := do
  return (← ctx.file.declarations.mapM (declaredCodecs ctx)).flatten

section File

variable {ctx : Context} {items : List Block}

theorem functions_declaredItems {d : Schema.Declared} (written : declaredItems ctx d = .ok items) :
    functions items = [] := by
  rw [declaredItems] at written
  split at written
  next =>
    cases written
    exact functions_enumItem ..
  next =>
    obtain ⟨s, -, written⟩ := ok_of_bind written
    cases written
    exact functions_messageItems ..

theorem exists_declaredCodecs {d : Schema.Declared} (written : declaredItems ctx d = .ok items) :
    ∃ code, declaredCodecs ctx d = .ok code ∧ helpersOf items = helpersOf code := by
  cases declared : d.declaration with
  | enum e =>
    simp only [declaredItems, declaredCodecs, declared] at written ⊢
    cases written
    exact ⟨[], rfl, helpersOf_enumItem ..⟩
  | message m =>
    simp only [declaredItems, declaredCodecs, declared] at written ⊢
    obtain ⟨s, mapped, written⟩ := ok_of_bind written
    cases written
    exact ⟨_, bind_eq_ok.2 ⟨s, mapped, rfl⟩, helpersOf_messageItems ..⟩

theorem functions_fileItems (written : fileItems ctx = .ok items) : functions items = [] := by
  obtain ⟨declared, each, written⟩ := ok_of_bind written
  obtain ⟨services, each', written⟩ := ok_of_bind written
  cases written
  rw [functions_flatMap, List.flatMap_eq_nil_iff, List.forall_mem_append]
  constructor
  · intro items member
    obtain ⟨d, -, written⟩ := mem_of_mapM each items member
    simp [functions_declaredItems written]
  · intro items member
    obtain ⟨s, -, written⟩ := mem_of_mapM each' items member
    obtain ⟨service, -, written⟩ := ok_of_bind written
    cases written
    simp [functions_serviceItems]

theorem exists_codecs {ds : List Schema.Declared} {declared : List (List Block)}
    (written : List.Forall₂ (fun d items => declaredItems ctx d = .ok items) ds declared) :
    ∃ codes, ds.mapM (declaredCodecs ctx) = .ok codes ∧ declared.flatMap helpersOf = codes.flatMap helpersOf := by
  induction written with
  | nil => exact ⟨[], rfl, rfl⟩
  | cons first _ ih =>
    obtain ⟨code, mapped, same⟩ := exists_declaredCodecs first
    obtain ⟨codes, others, rest⟩ := ih
    refine ⟨code :: codes, ?_, ?_⟩
    · rw [List.mapM_cons, mapped, others]
      rfl
    · rw [List.flatMap_cons, List.flatMap_cons, same, rest]

theorem exists_fileCodecs (written : fileItems ctx = .ok items) :
    ∃ code, fileCodecs ctx = .ok code ∧ helpersOf items = helpersOf code := by
  obtain ⟨declared, each, written⟩ := ok_of_bind written
  obtain ⟨services, each', written⟩ := ok_of_bind written
  cases written
  have own : services.flatMap helpersOf = [] := by
    rw [List.flatMap_eq_nil_iff]
    intro items member
    obtain ⟨s, -, written⟩ := mem_of_mapM each' items member
    obtain ⟨service, -, written⟩ := ok_of_bind written
    cases written
    exact helpersOf_serviceItems ..
  obtain ⟨codes, mapped, same⟩ := exists_codecs (forall₂_of_mapM each)
  refine ⟨codes.flatten, bind_eq_ok.2 ⟨codes, mapped, rfl⟩, ?_⟩
  have under (items : List Block) : helpersOf (.blank :: items) = helpersOf items := rfl
  rw [helpersOf_flatMap, List.flatMap_append, ← List.flatMap_id, helpersOf_flatMap]
  simp only [under, own, same, List.append_nil, id]

variable {long : LongOption} {helpers : List Helper}

theorem functions_helpersCode (timestamp : String) :
    functions (helpersCode long timestamp helpers) = helpers.map Helper.name := by
  simp [helpersCode, functions_flatMap, List.map_eq_flatMap]

theorem helpersOf_helpersCode (timestamp : String) :
    helpersOf (helpersCode long timestamp helpers) = helpers.flatMap (·.requires long) := by
  rw [helpersCode, helpersOf_flatMap]
  exact List.flatMap_congr fun h _ => Helper.helpersOf_code long timestamp h

theorem count_name (distinct : helpers.Nodup) : ∀ h ∈ helpers, (helpers.map Helper.name).count h.name = 1 := by
  intro h member
  rw [List.count_map_of_injective _ _ Helper.name_injective, List.count_eq_one_of_mem distinct member]

-- What is called by an item, or by a helper that is needed, is needed.
theorem needed_of_mem_helpersOf {timestamp : String} : ∀ h ∈ helpersOf (header ctx ++ items ++
    helpersCode long timestamp (Helper.needed long (helpersOf items))), h ∈ Helper.needed long (helpersOf items) := by
  intro h called
  obtain ⟨⟨includes, closed⟩, -⟩ := Helper.isLeast_needed long (helpersOf items)
  rw [helpersOf_append, helpersOf_append, helpersOf_header, helpersOf_helpersCode, List.nil_append,
    List.mem_append, List.mem_flatMap] at called
  obtain own | ⟨caller, member, required⟩ := called
  · exact includes h own
  · exact closed caller member h required

end File

end Code

namespace Compile

open Code (Helper fileCode fileCodecs fileItems functions header helpersCode helpersOf timestampPath)
open Schema (Index)

/-- The helpers of a file are the least set that has what its codecs call and is closed under calls. Their code is
written behind the items, each one's once, and no other function is defined outside of an item; so each helper that
is called anywhere, by a codec or another helper, is defined exactly once. -/
theorem helpers_exact {descriptors : List Descriptor.File} {files : List Schema.File} {index : Index}
    (built : indexed descriptors = .ok (files, index)) (verified : Schema.verify index files = .ok ())
    (groupless : ∀ f ∈ files, f.Groupless) (options : Options) {file : Schema.File} (member : file ∈ files) :
    ∃ codecs items helpers path code, fileCodecs ⟨options, index, file⟩ = .ok codecs ∧
      fileItems ⟨options, index, file⟩ = .ok items ∧ helpersOf items = helpersOf codecs ∧
      helpers = Helper.needed options.long (helpersOf items) ∧ helpers.Nodup ∧
      IsLeast {set : Set Helper | (∀ h ∈ helpersOf codecs, h ∈ set) ∧ Helper.Closed options.long set}
        {h | h ∈ helpers} ∧
      timestampPath ⟨options, index, file⟩ helpers = .ok path ∧
      fileCode ⟨options, index, file⟩ = .ok code ∧
      code = header ⟨options, index, file⟩ ++ items ++
        helpersCode options.long (Helper.fillMarks options.long path) helpers ∧
      functions code = helpers.map Helper.name ∧
      ∀ h ∈ helpersOf code, h ∈ helpers ∧ (functions code).count h.name = 1 := by
  obtain ⟨code, generated⟩ := exists_fileCode built verified groupless options member
  obtain ⟨items, path, written, found, rfl⟩ := Code.fileCode_eq generated
  obtain ⟨codecs, codes, same⟩ := Code.exists_fileCodecs written
  have distinct := Helper.nodup_needed options.long (helpersOf items)
  have least := Helper.isLeast_needed options.long (helpersOf items)
  have names : functions (header ⟨options, index, file⟩ ++ items ++
      helpersCode options.long (Helper.fillMarks options.long path) (Helper.needed options.long (helpersOf items))) =
        (Helper.needed options.long (helpersOf items)).map Helper.name := by
    rw [Code.functions_append, Code.functions_append, Code.functions_header, Code.functions_fileItems written,
      Code.functions_helpersCode, List.nil_append, List.nil_append]
  refine ⟨codecs, items, _, path, _, codes, written, same, rfl, distinct, ?_, found, generated, rfl, names, ?_⟩
  · exact same ▸ least
  · intro h called
    have needed := Code.needed_of_mem_helpersOf h called
    exact ⟨needed, names ▸ Code.count_name distinct h needed⟩

def datedFiles : List Descriptor.File := [
  { name := some "google/protobuf/timestamp.proto"
    package := some "google.protobuf"
    grammar := some "proto3"
    messages := [{
      name := some "Timestamp"
      fields := [
        { name := some "seconds", number := some 1, kind := some 3 },
        { name := some "nanos", number := some 2, kind := some 5 }] }] },
  { name := some "photo.proto"
    package := some "photo"
    grammar := some "proto3"
    messages := [{
      name := some "Photo"
      fields := [
        { name := some "data", number := some 1, kind := some 12 },
        { name := some "taken", number := some 2, kind := some 11,
          typeName := some ".google.protobuf.Timestamp" }] }] }]

def photoSchema : Schema.File where
  name := "photo.proto"
  package := "photo"
  grammar := .proto3
  enums := []
  messages := [⟨"Photo", [
    ⟨"data", "data", 1, .bytes, .optional, none, none, false⟩,
    ⟨"taken", "taken", 2, .message, .optional, some ".google.protobuf.Timestamp", none, false⟩], [], [], [], false⟩]
  services := []

def datedSchemas : List Schema.File := [
  { name := "google/protobuf/timestamp.proto"
    package := "google.protobuf"
    grammar := .proto3
    enums := []
    messages := [⟨"Timestamp", [
      ⟨"seconds", "seconds", 1, .int64, .optional, none, none, false⟩,
      ⟨"nanos", "nanos", 2, .int32, .optional, none, none, false⟩], [], [], [], false⟩]
    services := [] },
  photoSchema]

set_option maxRecDepth 3000 in
theorem mapM_datedFiles : datedFiles.mapM Schema.File.ofDescriptor = .ok datedSchemas := by rfl

set_option maxRecDepth 3000 in
theorem verify_datedSchemas : (Index.ofFiles datedSchemas >>= (Schema.verify · datedSchemas)) = .ok () := by
  simp only [Index.ofFiles, datedSchemas, List.flatMap_cons, List.flatMap_nil, Schema.File.declarations_eq]
  rfl

set_option maxRecDepth 3000 in
theorem called_photoSchema : (Index.ofFiles datedSchemas >>= fun index =>
    (fileCodecs ⟨{ long := .string }, index, photoSchema⟩).map helpersOf) =
    .ok [.bytesFromBase64, .timestampFromJson, .base64FromBytes, .timestampToJson] := by
  simp only [Index.ofFiles, datedSchemas, fileCodecs, List.flatMap_cons, List.flatMap_nil, Schema.File.declarations_eq]
  rfl

-- A timestamp in JSON needs six helpers, of which two are called by the codecs, and longs in texts one more.
theorem helpers_exact_dated : ∃ index code, indexed datedFiles = .ok (datedSchemas, index) ∧
    Schema.verify index datedSchemas = .ok () ∧ fileCode ⟨{ long := .string }, index, photoSchema⟩ = .ok code ∧
    functions code = ["long_from_string", "base64_from_bytes", "bytes_from_base64", "timestamp_from_date",
      "timestamp_from_iso", "date_from_timestamp", "iso_from_timestamp", "timestamp_to_json", "timestamp_from_json"] ∧
    ∀ h ∈ helpersOf code, (functions code).count h.name = 1 := by
  obtain ⟨index, indexes, calls⟩ := ok_of_bind called_photoSchema
  have verified : Schema.verify index datedSchemas = .ok () := by
    have both := verify_datedSchemas
    rwa [indexes] at both
  have built : indexed datedFiles = .ok (datedSchemas, index) := indexed_eq_ok.2 ⟨mapM_datedFiles, indexes⟩
  have groupless : ∀ f ∈ datedSchemas, f.Groupless := by
    simp only [datedSchemas, List.forall_mem_cons, Schema.File.Groupless, Schema.File.declarations_eq]
    decide
  obtain ⟨codecs, items, helpers, path, code, codes, -, same, rfl, -, -, -, generated, -, names, once⟩ :=
    helpers_exact built verified groupless { long := .string } (List.mem_cons_of_mem _ (List.mem_singleton_self _))
  rw [codes] at calls
  have called : helpersOf codecs = _ := Except.ok.inj calls
  refine ⟨index, code, built, verified, generated, ?_, fun h called => (once h called).2⟩
  rw [names, same, called, Helper.needed_eq]
  rfl

end Compile

end Protogen
