import Protogen.Proofs.Code.Literals
import Protogen.Proofs.Code.StringLiteral
import Protogen.Proofs.Code.Written
import Protogen.Proofs.Compile.Generation
import Protogen.Proofs.Target.Variants

set_option autoImplicit false

namespace Protogen

open Schema (Index leading leading_snoc)

namespace Target.Enumeration

variable {symbol : String} {e : Schema.Enum}

theorem written_variants (symbol : String) (e : Schema.Enum) :
    (ofSchema symbol e).variants.map (·.written) = (leading e.values).map (·.name) := by
  have numbers (values : List Schema.EnumValue) := numbers_variants symbol ⟨e.name, values⟩
  simp only [ofSchema] at numbers ⊢
  induction e.values using List.reverseRecOn with
  | nil => rfl
  | append_singleton values v ih =>
    have known : (values.foldl addValue []).any (·.number == v.number) = values.any (·.number == v.number) := by
      have same := congrArg (List.any · (· == v.number)) (numbers values)
      rw [List.any_map, List.any_map] at same
      exact same.trans (Schema.any_leading values v.number)
    rw [List.foldl_append, List.foldl_cons, List.foldl_nil, map_addValue _ fun _ _ => rfl, ih, leading_snoc, known]
    split <;> simp

-- The names of all variants are those of all values.
theorem perm_aliases (symbol : String) (e : Schema.Enum) :
    ((ofSchema symbol e).variants.flatMap (·.aliases)).Perm (e.values.map (·.name)) := by
  have each : (ofSchema symbol e).variants.flatMap (·.aliases) = (((ofSchema symbol e).variants.map (·.number)).flatMap
      fun n => e.values.filter fun v => some v.number == some n).map (·.name) := by
    rw [List.flatMap_map, List.map_flatMap]
    exact List.flatMap_congr fun v member => gathers_ofSchema symbol e v member
  have known : ∀ v ∈ e.values, ∀ n, some v.number = some n → n ∈ (ofSchema symbol e).variants.map (·.number) := by
    intro v member n same
    rw [mem_numbers_iff, ← Option.some.inj same]
    exact List.mem_map_of_mem member
  have sorted := perm_by_key (fun v : Schema.EnumValue => some v.number) (nodup_numbers symbol e) known
  rw [each]
  simpa using (sorted.map (·.name)).symm

end Target.Enumeration

namespace Code

open StringLiteral (Denotes Verbatim denotes_iff quoted toList_literal)
open Target (Enumeration Service Struct)

def keys (options : Options) (m : Schema.Message) : List String :=
  m.fields.map fun f => if options.snakeToCamel then f.jsonName else f.name

/-- The texts in the code for a declaration: of an enumeration the names that are written, the first ones of their
numbers, and the names that are read, which are all of them; of a message the keys that are read, and those that are
written. -/
inductive Quotes (options : Options) (d : Schema.Declared) : List String → Prop
  | names {e : Schema.Enum} {read : List String} (declared : d.declaration = .enum e)
      (all : read.Perm (e.values.map (·.name))) :
      Quotes options d ((leading e.values).map (·.name) ++
        (if options.stringEnums && (Enumeration.ofSchema d.symbol e).addsFallback then ["UNRECOGNIZED"] else []) ++
        read)
  | keys {m : Schema.Message} {written : List String} (declared : d.declaration = .message m)
      (json : options.outputJson = true) (all : written.Perm (keys options m)) :
      Quotes options d (Code.keys options m ++ written)
  | nothing {m : Schema.Message} (declared : d.declaration = .message m) (binary : options.outputJson = false) :
      Quotes options d []

def fullName (package : String) (s : Schema.Service) : String :=
  if package.isEmpty then s.name else package ++ "." ++ s.name

/-- The texts in the code for a service: its name, and with a client the names of the methods, of which those with an
accessor may come twice. -/
inductive QuotesService (options : Options) (package : String) (s : Schema.Service) : List String → Prop
  | none (client : options.client = .none) : QuotesService options package s [fullName package s]
  | rpc {bulk : List Schema.Method} (client : options.client = .rpc) (some : bulk.Sublist s.methods) :
      QuotesService options package s (fullName package s :: (bulk.map (·.name) ++ s.methods.map (·.name)))
  | grpc (client : options.client = .grpc) :
      QuotesService options package s (fullName package s :: s.methods.map (·.name))

section

variable {ctx : Target.Context}

theorem quotes_declaredItems {d : Schema.Declared} {items : List Block} (written : declaredItems ctx d = .ok items) :
    Quotes ctx.options d (literals items) := by
  rw [declaredItems] at written
  split at written
  next e declared =>
    cases written
    rw [literals_enumItem, Enumeration.written_variants]
    exact .names declared (Enumeration.perm_aliases d.symbol e)
  next m declared =>
    obtain ⟨s, mapped, written⟩ := ok_of_bind written
    cases written
    have read := Struct.jsonKeys_ofMessage mapped
    rw [literals_messageItems]
    split
    next json =>
      rw [literals_fromJsonFn, literals_toJsonFn, read]
      exact .keys declared json (((Struct.perm_written mapped).map (·.jsonKey)).trans (.of_eq read))
    next binary => exact .nothing declared (by simpa using binary)

theorem quotes_serviceItems {s : Schema.Service} {service : Service} (mapped : Service.ofSchema ctx s = .ok service) :
    QuotesService ctx.options ctx.file.package s (literals (serviceItems ctx.options service)) := by
  obtain ⟨full, methods, accessors⟩ := Service.named_ofSchema mapped
  rw [literals_serviceItems, methods, full]
  cases client : ctx.options.client with
  | none => exact .none client
  | rpc =>
    have bulk : service.batches.map (·.method.name) = (service.batches.map (·.method)).map (·.name) := by simp
    rw [bulk]
    exact .rpc client accessors
  | grpc => exact .grpc client

theorem quotes_fileCode {code : List Block} (generated : fileCode ctx = .ok code) : ∃ declared services,
    literals code = ctx.file.package :: (declared.flatten ++ services.flatten) ∧
      List.Forall₂ (Quotes ctx.options) ctx.file.declarations declared ∧
      List.Forall₂ (QuotesService ctx.options ctx.file.package) ctx.file.services services := by
  obtain ⟨items, written, generated⟩ := ok_of_bind generated
  obtain ⟨helpers, called, generated⟩ := ok_of_bind generated
  cases generated
  obtain ⟨declared, each, written⟩ := ok_of_bind written
  obtain ⟨services, each', written⟩ := ok_of_bind written
  cases written
  refine ⟨declared.map literals, services.map literals, ?_, ?_, ?_⟩
  · simp [literals_header, literals_helperItems called, ← List.flatMap_def]
  · rw [List.forall₂_map_right_iff]
    exact (forall₂_of_mapM each).imp fun _ _ written => quotes_declaredItems written
  · rw [List.forall₂_map_right_iff]
    refine (forall₂_of_mapM each').imp fun _ _ written => ?_
    obtain ⟨service, mapped, written⟩ := ok_of_bind written
    cases written
    exact quotes_serviceItems mapped

theorem keys_subset {code : List Block} (generated : fileCode ctx = .ok code) (json : ctx.options.outputJson = true)
    {d : Schema.Declared} (own : d ∈ ctx.file.declarations) {m : Schema.Message}
    (declared : d.declaration = .message m) : keys ctx.options m ⊆ literals code := by
  obtain ⟨texts, services, all, each, -⟩ := quotes_fileCode generated
  obtain ⟨own, listed, quotes⟩ := exists_of_forall₂ each.flip d own
  have within : own ⊆ literals code := by
    rw [all]
    intro text member
    exact List.mem_cons_of_mem _ (List.mem_append_left _ (List.mem_flatten_of_mem listed member))
  refine List.Subset.trans ?_ within
  cases quotes with
  | names enum _ => cases declared.symm.trans enum
  | keys message _ _ =>
    cases declared.symm.trans message
    exact List.subset_append_left _ _
  | nothing _ binary => cases json.symm.trans binary

end

-- A text of the code in quotation marks stands so in the text of it, with the rest of its line.
theorem exists_quoted {code : List Block} {front back : List Piece} {text : String}
    (line : (⟨front ++ .literal text :: back⟩ : Line) ∈ linesOf code) : ∃ before after,
      (textOf code).toList =
        before ++ (Line.render ⟨front⟩).toList ++ (quoted text ++ ((Line.render ⟨back⟩).toList ++ after)) := by
  obtain ⟨before, after, whole⟩ := infix_textOf line
  have parts : (⟨front ++ .literal text :: back⟩ : Line) = ⟨front⟩ ++ (⟨[.literal text]⟩ ++ ⟨back⟩) := rfl
  refine ⟨before, after, ?_⟩
  rw [← whole, parts, Line.render_append, Line.render_append, Line.render_piece, String.toList_append,
    String.toList_append, toList_literal]
  simp only [List.append_assoc]

theorem exists_line_of_mem {code : List Block} {text : String} (listed : text ∈ literals code) :
    ∃ front back, (⟨front ++ .literal text :: back⟩ : Line) ∈ linesOf code := by
  obtain ⟨l, line, picked⟩ := List.mem_flatMap.1 listed
  obtain ⟨p, piece, found⟩ := List.mem_filterMap.1 picked
  cases p <;> cases found
  obtain ⟨front, back, pieces⟩ := List.append_of_mem piece
  exact ⟨front, back, pieces ▸ line⟩

end Code

namespace Compile

open Code (Block Line Piece Quotes QuotesService fileCode linesOf literals textOf)
open Code.StringLiteral (Denotes Verbatim denotes_iff quoted value?)

/-- What stands between quotation marks in the code for a file is known from the schema: its package, the keys of
fields, the names of values, of services and of methods, and nothing else. Wherever it does, it is read as the text of
the schema if and only if this has no quotation mark, no backslash and no carriage return. -/
theorem literals_denote {descriptors : List Descriptor.File} {files : List Schema.File} {index : Index}
    (built : indexed descriptors = .ok (files, index)) (verified : Schema.verify index files = .ok ())
    (options : Options) {file : Schema.File} (member : file ∈ files) :
    ((∀ f ∈ files, f.Groupless) → ∃ code, fileCode ⟨options, index, file⟩ = .ok code) ∧
    ∀ code, fileCode ⟨options, index, file⟩ = .ok code →
      (∃ declared services, literals code = file.package :: (declared.flatten ++ services.flatten) ∧
        List.Forall₂ (Quotes options) file.declarations declared ∧
        List.Forall₂ (QuotesService options file.package) file.services services) ∧
      ∀ front text back, (⟨front ++ .literal text :: back⟩ : Line) ∈ linesOf code → ∃ before after,
        (textOf code).toList =
            before ++ (Line.render ⟨front⟩).toList ++ (quoted text ++ ((Line.render ⟨back⟩).toList ++ after)) ∧
          (Denotes text ((Line.render ⟨back⟩).toList ++ after) ↔ Verbatim text) := by
  refine ⟨fun groupless => exists_fileCode built verified groupless options member, fun code generated => ?_⟩
  refine ⟨Code.quotes_fileCode generated, fun front text back line => ?_⟩
  obtain ⟨before, after, whole⟩ := Code.exists_quoted line
  exact ⟨before, after, whole, denotes_iff⟩

-- The package and the key of a map are among the literals, and denote what they are in the schema.
theorem literals_denote_shop : ∃ index code, indexed [shopFile] = .ok ([shopSchema], index) ∧
    fileCode ⟨{}, index, shopSchema⟩ = .ok code ∧
    (∃ declared services, literals code = "shop" :: (declared.flatten ++ services.flatten) ∧
      List.Forall₂ (Quotes {}) shopSchema.declarations declared ∧
      List.Forall₂ (QuotesService {} "shop") shopSchema.services services) ∧
    ∀ text ∈ ["shop", "stock"], ∃ before rest, (textOf code).toList = before ++ (quoted text ++ rest) ∧
      Denotes text rest := by
  obtain ⟨index, indexes, verified⟩ := ok_of_bind verify_shopSchema
  have built : indexed [shopFile] = .ok ([shopSchema], index) := indexed_eq_ok.2 ⟨mapM_shopFile, indexes⟩
  have groupless : ∀ f ∈ [shopSchema], f.Groupless := by
    simpa only [List.forall_mem_singleton] using groupless_shopSchema
  obtain ⟨complete, texts⟩ := literals_denote built verified {} (List.mem_singleton_self shopSchema)
  obtain ⟨code, generated⟩ := complete groupless
  obtain ⟨listed, denote⟩ := texts code generated
  refine ⟨index, code, built, generated, listed, fun text member => ?_⟩
  have literal : text ∈ literals code := by
    simp only [List.mem_cons, List.not_mem_nil, or_false] at member
    rcases member with rfl | rfl
    · obtain ⟨declared, services, all, -⟩ := listed
      rw [all]
      exact List.mem_cons_self ..
    · have key : "stock" ∈ Code.keys {} shopItem := by decide
      exact Code.keys_subset generated rfl shopItem_declared rfl key
  obtain ⟨front, back, line⟩ := Code.exists_line_of_mem literal
  obtain ⟨before, after, whole, denotes⟩ := denote front text back line
  have shop : Verbatim "shop" := by decide
  have stock : Verbatim "stock" := by decide
  refine ⟨_, _, whole, denotes.2 ?_⟩
  simp only [List.mem_cons, List.not_mem_nil, or_false] at member
  rcases member with rfl | rfl
  · exact shop
  · exact stock

def markedFile : Descriptor.File where
  name := some "a.proto"
  package := some "p"
  grammar := some "proto3"
  messages := [{
    name := some "M"
    fields := [{ name := some "f", number := some 1, kind := some 9, jsonName := some "a\"b" }] }]

def markedSchema : Schema.File where
  name := "a.proto"
  package := "p"
  grammar := .proto3
  enums := []
  messages := [⟨"M", [⟨"f", "a\"b", 1, .string, .optional, none, none, false⟩], [], [], [], false⟩]
  services := []

theorem verify_markedSchema : (Index.ofFiles [markedSchema] >>= (Schema.verify · [markedSchema])) = .ok () := by
  simp only [Index.ofFiles, List.flatMap_cons, List.flatMap_nil, Schema.File.declarations_eq]
  rfl

-- The literal ends at the mark.
theorem key_cut_short : ∃ index code, indexed [markedFile] = .ok ([markedSchema], index) ∧
    Schema.verify index [markedSchema] = .ok () ∧ fileCode ⟨{}, index, markedSchema⟩ = .ok code ∧
    (∃ front back, (⟨front ++ .literal "a\"b" :: back⟩ : Line) ∈ linesOf code) ∧
    ∀ after, value? (quoted "a\"b" ++ after) = some (['a'], 'b' :: '"' :: Code.StringLiteral.newlines after) := by
  obtain ⟨index, indexes, verified⟩ := ok_of_bind verify_markedSchema
  have built : indexed [markedFile] = .ok ([markedSchema], index) := indexed_eq_ok.2 ⟨rfl, indexes⟩
  have groupless : ∀ f ∈ [markedSchema], f.Groupless := by
    rw [List.forall_mem_singleton, Schema.File.Groupless, Schema.File.declarations_eq]
    decide
  obtain ⟨code, generated⟩ := exists_fileCode built verified groupless {} (List.mem_singleton_self markedSchema)
  refine ⟨index, code, built, verified, generated, ?_, fun after => ?_⟩
  · have own : markedSchema.topLevel.declareMessage
        ⟨"M", [⟨"f", "a\"b", 1, .string, .optional, none, none, false⟩], [], [], [], false⟩ ∈
          markedSchema.declarations := by
      rw [Schema.File.declarations_eq]
      exact List.mem_singleton_self _
    exact Code.exists_line_of_mem (Code.keys_subset generated rfl own rfl (List.mem_singleton_self _))
  · rw [Code.StringLiteral.value_quoted]
    rfl

end Compile

end Protogen
