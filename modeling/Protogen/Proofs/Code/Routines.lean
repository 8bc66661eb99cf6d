import Mathlib.Data.List.Basic
import Protogen.Code.Routines
import Protogen.Proofs.Target.Services

set_option autoImplicit false

namespace Protogen.Code

open Target (BatchMethod Context Enumeration Field Member Method Service Struct Union Variant)

variable {α : Type} {steps : List Step} {s : Struct} {f : Field} {service : Service}

-- Blocks

@[simp]
theorem stepsOf_nil : stepsOf [] = [] :=
  rfl

@[simp]
theorem stepsOf_cons (b : Block) (code : List Block) : stepsOf (b :: code) = b.steps ++ stepsOf code :=
  rfl

@[simp]
theorem stepsOf_append (code code' : List Block) : stepsOf (code ++ code') = stepsOf code ++ stepsOf code' := by
  induction code with
  | nil => rfl
  | cons b code ih => rw [List.cons_append, stepsOf, stepsOf, ih, List.append_assoc]

@[simp]
theorem stepsOf_flatMap (f : α → List Block) (as : List α) :
    stepsOf (as.flatMap f) = as.flatMap fun a => stepsOf (f a) := by
  induction as with
  | nil => rfl
  | cons a as ih => rw [List.flatMap_cons, stepsOf_append, List.flatMap_cons, ih]

theorem stepsOf_map (f : α → Block) (as : List α) : stepsOf (as.map f) = as.flatMap fun a => (f a).steps := by
  rw [List.map_eq_flatMap, stepsOf_flatMap]
  exact List.flatMap_congr fun a _ => List.append_nil _

@[simp]
theorem stepsOf_lines (l : α → Line) (as : List α) :
    stepsOf (as.map fun a => .line (l a)) = as.map fun a => .line (l a) :=
  (stepsOf_map _ as).trans List.map_eq_flatMap.symm

@[simp]
theorem Block.steps_line (l : Line) : (Block.line l).steps = [.line l] :=
  rfl

@[simp]
theorem Block.steps_blank : Block.blank.steps = [.blank] :=
  rfl

@[simp]
theorem Block.steps_block (header : Line) (body : List Block) (closer : String) :
    (Block.block header body closer).steps = .opening header :: stepsOf body ++ [.closing closer] :=
  rfl

@[simp]
theorem Block.steps_hang (opener : Line) (body : List Block) (closer : String) :
    (Block.hang opener body closer).steps = .line opener :: .indent :: stepsOf body ++ [.closing closer] :=
  rfl

@[simp]
theorem steps_block (header : Line) (body : List Block) :
    (block header body).steps = .opening header :: stepsOf body ++ [.close] :=
  rfl

theorem writeHeader_eq (ctx : Context) : writeHeader ctx = stepsOf (header ctx) :=
  rfl

-- Declarations

theorem writeAttribute_eq (symbol : String) : writeAttribute symbol = stepsOf (nameAttribute symbol) := by
  rw [writeAttribute, nameAttribute]
  split <;> rfl

theorem writeStruct_eq (s : Struct) : writeStruct s = stepsOf (structItem s) := by
  simp only [writeStruct, writeAttribute_eq, structItem, structWith, choiceItem, List.isEmpty_map]
  split <;> simp

theorem writeDefault_eq (s : Struct) : writeDefault s = stepsOf (defaultImpl s) := by
  simp only [writeDefault, defaultImpl, List.isEmpty_map]
  split <;> simp

theorem writeNames_eq (symbol : String) (variants : List Variant) (extra : Option (String × String)) :
    writeNames symbol variants extra =
      (nameFn symbol (variants.map (fun v => (v.name, v.written)) ++ extra.toList)).steps := by
  simp [writeNames, nameFn, Function.comp_def]

theorem writeNumberEnum_eq (e : Enumeration) (json : EnumJson) :
    writeNumberEnum e json = stepsOf (numberEnum e json) := by
  cases json <;>
    simp [writeNumberEnum, numberEnum, derives, nameArms, writeAttribute_eq, writeNames_eq]

theorem writeVariantEnum_eq (e : Enumeration) (json : EnumJson) :
    writeVariantEnum e json = stepsOf (variantEnum e json) := by
  simp only [writeVariantEnum, variantEnum, Enumeration.numbers, Enumeration.names, writeNames_eq]
  cases json <;> split <;>
    simp [derives, nameArms, writeAttribute_eq, Function.comp_def]

theorem writeEnum_eq (options : Options) (e : Enumeration) : writeEnum options e = stepsOf (enumItem options e) := by
  rw [writeEnum, enumItem, writeVariantEnum_eq, writeNumberEnum_eq]
  split <;> rfl

-- The binary codec

theorem writeValue_eq (f : Field) (v : Value) : writeValue f v = stepsOf (writeRecord f v) := by
  rw [writeValue, writeRecord]
  cases f.base <;> rfl

theorem writeEncodeField_eq (f : Field) : writeEncodeField f = stepsOf (encodeField f) := by
  simp only [writeEncodeField, encodeField]
  cases f.container with
  | required => cases f.base <;> simp [writeValue_eq]
  | optional => simp [writeValue_eq]
  | repeated =>
    cases f.base with
    | child c => simp [writeValue_eq]
    | primitive p => by_cases packed : p.isPackable = true <;> simp [packed, writeValue_eq, delimited]
  | map shape => simp [delimited]
  | union choice variant => rfl

theorem writeEncodeMember_eq (s : Struct) : writeEncodeMember s = fun m => stepsOf (encodeMember s m) := by
  funext m
  cases m with
  | field f => exact writeEncodeField_eq f
  | union u => simp [writeEncodeMember, encodeMember, matchUnion, writeValue_eq, stepsOf_map]

theorem writeEncode_eq (s : Struct) : writeEncode s = (encodeFn s).steps := by
  rw [writeEncode, encodeFn]
  split <;> simp [writeEncodeMember_eq]

def Chosen (s : Struct) (f : Field) : Prop :=
  ∀ choice variant, f.container = .union choice variant → ∃ u, s.union? choice = some u

theorem writeDecodeField_eq_ok : writeDecodeField s f = .ok steps ↔ Chosen s f ∧ steps = (decodeArm s f).steps := by
  simp only [writeDecodeField, decodeArm, Chosen]
  cases f.container with
  | required => simp [pure, Except.pure, bind, Except.bind, eq_comm]
  | optional => simp [pure, Except.pure, bind, Except.bind, eq_comm, clearSiblings]
  | repeated =>
    by_cases packed : f.base.isPackable = true <;>
      simp [pure, Except.pure, bind, Except.bind, eq_comm, packed]
  | map shape =>
    obtain ⟨key, path, wrapped, boxed⟩ := shape
    cases wrapped <;> cases boxed <;> simp [pure, Except.pure, bind, Except.bind, eq_comm]
  | union choice variant =>
    cases found : s.union? choice with
    | none => simp [choiceOf, found, bind, Except.bind]
    | some u => simp [choiceOf, found, pure, Except.pure, bind, Except.bind, eq_comm, setUnion]

theorem writeDecode_eq_ok : writeDecode s = .ok steps ↔ (∀ f ∈ s.fields, Chosen s f) ∧ steps = (decodeFn s).steps := by
  rw [writeDecode, decodeFn]
  split
  next none => simp [List.isEmpty_iff.1 none, pure, Except.pure, eq_comm]
  next =>
    simp only [bind_eq_ok, mapM_eq_ok fun _ _ => writeDecodeField_eq_ok, pure, Except.pure, Except.ok.injEq]
    simp [stepsOf_map, ← List.flatMap_def, eq_comm]

theorem writeMessageImpl_eq_ok :
    writeMessageImpl s = .ok steps ↔ (∀ f ∈ s.fields, Chosen s f) ∧ steps = stepsOf (messageImpl s) := by
  simp only [writeMessageImpl, bind_eq_ok, writeDecode_eq_ok, pure, Except.pure, Except.ok.injEq]
  simp [messageImpl, writeEncode_eq, eq_comm]

-- The JSON codec

theorem writeFromJsonField_eq_ok :
    writeFromJsonField s f = .ok steps ↔ Chosen s f ∧ steps = (fromJsonField s f).steps := by
  simp only [writeFromJsonField, fromJsonField, Chosen]
  cases f.container with
  | required | repeated | map => simp [pure, Except.pure, bind, Except.bind, eq_comm]
  | optional => simp [pure, Except.pure, bind, Except.bind, eq_comm, clearSiblings]
  | union choice variant =>
    cases found : s.union? choice with
    | none => simp [choiceOf, found, bind, Except.bind]
    | some u => simp [choiceOf, found, pure, Except.pure, bind, Except.bind, eq_comm, setUnion]

theorem writeToJsonField_eq (f : Field) : writeToJsonField f = stepsOf (toJsonField f) := by
  simp only [writeToJsonField, toJsonField]
  cases f.container <;> rfl

theorem writeToJsonMember_eq (s : Struct) : writeToJsonMember s = fun m => stepsOf (toJsonMember s m) := by
  funext m
  cases m with
  | field f => exact writeToJsonField_eq f
  | union u => simp [writeToJsonMember, toJsonMember, matchUnion, writeInsert, insertKey, stepsOf_map]

theorem writeJsonImpl_eq_ok :
    writeJsonImpl s = .ok steps ↔ (∀ f ∈ s.fields, Chosen s f) ∧ steps = stepsOf (jsonImpl s) := by
  simp only [writeJsonImpl, jsonImpl, fromJsonFn, toJsonFn]
  split
  next none => simp [List.isEmpty_iff.1 none, pure, Except.pure, bind, Except.bind, eq_comm]
  next =>
    simp only [bind_eq_ok, mapM_eq_ok fun _ _ => writeFromJsonField_eq_ok, pure, Except.pure, Except.ok.injEq]
    simp [stepsOf_map, ← List.flatMap_def, writeToJsonMember_eq, eq_comm]

-- Partial items

theorem writePartialStruct_eq (s : Struct) : writePartialStruct s = stepsOf (partialItem s) := by
  simp only [writePartialStruct, writeAttribute_eq, partialItem, structWith, choiceItem, List.isEmpty_map]
  split <;> simp

theorem writeAssign_eq (f : Field) : writeAssign f = (assign f).steps :=
  rfl

theorem writeAssignMember_eq (s : Struct) : writeAssignMember s = fun m => (assignMember s m).steps := by
  funext m
  cases m with
  | field f => exact writeAssign_eq f
  | union u => simp [writeAssignMember, assignMember, assignUnion, stepsOf_map]

theorem writeFromPartial_eq (s : Struct) : writeFromPartial s = stepsOf (fromPartialImpl s) := by
  rw [writeFromPartial, fromPartialImpl]
  split <;> simp [writeAssignMember_eq, stepsOf_map]

-- Services

theorem writeTrait_eq (s : Service) : writeTrait s = (serviceTrait s).steps := by
  simp [writeTrait, serviceTrait, provided, bulkRequest]

theorem writeLoader_eq (b : BatchMethod) (captures : List String) (call : Line) :
    writeLoader b captures call = (makeLoader b captures call).steps := by
  simp [writeLoader, makeLoader, bulkRequest]

theorem writeConstructorTail_eq (s : Service) (fields : List String) :
    writeConstructorTail s fields = (newClient s fields).steps := by
  simp [writeConstructorTail, newClient]

theorem writeOverrides_eq (s : Service) : writeOverrides s = stepsOf (s.batches.flatMap loaded) := by
  simp [writeOverrides, loaded]

theorem writeLoaderMembers_eq (s : Service) : writeLoaderMembers s = stepsOf (s.batches.map loaderMember) := by
  exact (stepsOf_lines _ _).symm

theorem writeDescriptors_eq (s : Service) : writeDescriptors s = stepsOf (s.methods.map (methodDescriptor s)) := by
  simp [writeDescriptors, methodDescriptor, stepsOf_map]

def Bulk (s : Service) (b : BatchMethod) : Prop :=
  ∃ m ∈ s.methods, m.name = b.method.name

theorem bulkResponse_eq_ok {b : BatchMethod} {response : String} :
    bulkResponse service b = .ok response ↔ Bulk service b ∧ response = service.bulkResponse b := by
  rw [bulkResponse, Service.bulkResponse, Bulk]
  cases found : service.methods.find? (·.name == b.method.name) with
  | none =>
    refine iff_of_false nofun ?_
    rintro ⟨⟨m, member, own⟩, -⟩
    exact List.find?_eq_none.1 found m member (by simpa using own)
  | some m =>
    have own : m.name = b.method.name := by simpa using List.find?_some found
    simpa [eq_comm] using fun _ => ⟨m, List.mem_of_find?_eq_some found, own⟩

theorem stepsOf_intersperse (f : α → Block) (as : List α) : stepsOf ((as.map f).intersperse .blank) =
    as.zipIdx.flatMap fun (a, position) => (if 0 < position then [.blank] else []) ++ (f a).steps := by
  have later (as : List α) (n : Nat) :
      (as.zipIdx (n + 1)).flatMap (fun (a, position) => (if 0 < position then [.blank] else []) ++ (f a).steps) =
        as.flatMap fun a => .blank :: (f a).steps := by
    induction as generalizing n with
    | nil => rfl
    | cons a as ih => simp [ih]
  cases as with
  | nil => rfl
  | cons a as =>
    rw [List.zipIdx_cons, List.flatMap_cons, later]
    induction as generalizing a with
    | nil => simp
    | cons a' as ih => simpa using ih a'

theorem writeLoaders_eq_ok {captures : List String} {call : BatchMethod → String → Line} :
    writeLoaders service captures call = .ok steps ↔ (∀ b ∈ service.batches, Bulk service b) ∧
      steps = stepsOf (service.batches.map fun b => makeLoader b captures (call b (service.bulkResponse b))) := by
  have each (b : BatchMethod) (part : List Step) :
      (do return writeLoader b captures (call b (← bulkResponse service b))) = Except.ok part ↔
        Bulk service b ∧ part = (makeLoader b captures (call b (service.bulkResponse b))).steps := by
    simp only [bind_eq_ok, bulkResponse_eq_ok, writeLoader_eq, pure, Except.pure, Except.ok.injEq]
    grind
  simp only [writeLoaders, bind_eq_ok, mapM_eq_ok each]
  simp [pure, Except.pure, stepsOf_map, ← List.flatMap_def, eq_comm]

theorem writeMethods_eq (s : Service) (body : Method → List Block) : writeMethods s (fun m => stepsOf (body m)) =
    stepsOf ((s.methods.map fun m => block (signature m) (body m)).intersperse .blank) := by
  simp [writeMethods, stepsOf_intersperse]

theorem writeRpcCall_eq (s : Service) : writeRpcCall s = fun m => stepsOf (rpcCall s m) := by
  funext m
  rw [writeRpcCall, rpcCall]
  cases m.clientStreaming <;> cases m.serverStreaming <;> rfl

theorem writeRpcClient_eq_ok : writeRpcClient service = .ok steps ↔
    (∀ b ∈ service.batches, Bulk service b) ∧ steps = stepsOf (rpcClient service) := by
  simp only [writeRpcClient, bind_eq_ok, writeLoaders_eq_ok, pure, Except.pure, Except.ok.injEq]
  simp [rpcClient, clientImpl, writeRpcCall_eq, writeMethods_eq, writeLoaderMembers_eq, writeConstructorTail_eq,
    writeOverrides_eq, eq_comm]

theorem writeGrpcCall_eq (s : Service) : writeGrpcCall s = fun m => stepsOf (grpcCall s m) := by
  funext m
  rw [writeGrpcCall, grpcCall]
  cases m.clientStreaming <;> cases m.serverStreaming <;> rfl

theorem writeGrpcClient_eq_ok : writeGrpcClient service = .ok steps ↔
    (∀ b ∈ service.batches, Bulk service b) ∧ steps = stepsOf (grpcClient service) := by
  simp only [writeGrpcClient, bind_eq_ok, writeLoaders_eq_ok, pure, Except.pure, Except.ok.injEq]
  simp [grpcClient, clientImpl, writeGrpcCall_eq, writeMethods_eq, writeLoaderMembers_eq, writeConstructorTail_eq,
    writeOverrides_eq, writeDescriptors_eq, eq_comm]

theorem writeService_eq_ok (options : Options) : writeService options service = .ok steps ↔
    (options.client ≠ .none → ∀ b ∈ service.batches, Bulk service b) ∧
      steps = stepsOf (serviceItems options service) := by
  simp only [writeService, serviceItems, writeTrait_eq]
  cases options.client with
  | none => simp [pure, Except.pure, bind, Except.bind, eq_comm]
  | rpc =>
    simp only [bind_eq_ok, writeRpcClient_eq_ok, pure, Except.pure, Except.ok.injEq]
    simp [eq_comm]
  | grpc =>
    simp only [bind_eq_ok, writeGrpcClient_eq_ok, pure, Except.pure, Except.ok.injEq]
    simp [eq_comm]

-- Files

theorem writeMessage_eq_ok (options : Options) : writeMessage options s = .ok steps ↔
    (options.outputEncode ∨ options.outputJson → ∀ f ∈ s.fields, Chosen s f) ∧
      steps = stepsOf (messageItems options s) := by
  simp only [writeMessage, messageItems, writeStruct_eq, writeDefault_eq, writePartialStruct_eq, writeFromPartial_eq]
  cases options.outputEncode <;> cases options.outputJson <;>
    simp only [bind_eq_ok, writeMessageImpl_eq_ok, writeJsonImpl_eq_ok, pure, Except.pure, Except.ok.injEq,
      if_true, if_false, Bool.false_eq_true] <;>
    cases options.outputPartial <;> simp [eq_comm]

theorem writeDeclared_eq (ctx : Context) (d : Schema.Declared) :
    writeDeclared ctx d = (declaredItems ctx d).map stepsOf := by
  rw [writeDeclared, declaredItems]
  cases d.declaration with
  | enum e => exact congrArg Except.ok (writeEnum_eq ..)
  | message m =>
    dsimp only
    cases mapped : Struct.ofMessage ctx d.fullName d.symbol m with
    | error e => rfl
    | ok s => exact (writeMessage_eq_ok ctx.options).2 ⟨fun _ => Struct.chosen_ofMessage mapped, rfl⟩

theorem writeMapped_eq (ctx : Context) (service : Schema.Service) :
    (do writeService ctx.options (← Service.ofSchema ctx service)) =
      (do return serviceItems ctx.options (← Service.ofSchema ctx service)).map stepsOf := by
  cases mapped : Service.ofSchema ctx service with
  | error e => rfl
  | ok s => exact (writeService_eq_ok ctx.options).2 ⟨fun _ b member => Service.bulk_ofSchema mapped b member, rfl⟩

theorem marksOf_append (steps steps' : List Step) : marksOf (steps ++ steps') = marksOf steps ++ marksOf steps' :=
  List.flatMap_append

mutual

theorem Block.marksOf_steps (b : Block) : marksOf b.steps = helpersOf [b] := by
  match b with
  | .line l => simp [marksOf, Step.helpers, helpersOf, linesOf, Block.lines]
  | .blank => rfl
  | .block header body closer | .hang header body closer =>
    have inside := marksOf_stepsOf body
    simp only [marksOf, helpersOf] at inside
    simp [marksOf, Step.helpers, helpersOf, linesOf, Block.lines, inside]

theorem marksOf_stepsOf (code : List Block) : marksOf (stepsOf code) = helpersOf code := by
  match code with
  | [] => rfl
  | b :: code =>
    rw [stepsOf_cons, marksOf_append, b.marksOf_steps, marksOf_stepsOf code]
    simp [helpersOf, linesOf]

end

theorem writeFile_eq (ctx : Context) : writeFile ctx = do
    let items ← fileItems ctx
    let helpers := Helper.needed ctx.options.long (helpersOf items)
    let path ← timestampPath ctx helpers
    return stepsOf (header ctx ++ items) ++
      helpers.flatMap fun h => .blank :: fragmentSteps (h.text ctx.options.long path) := by
  have declared (d : Schema.Declared) : (do return Step.blank :: (← writeDeclared ctx d)) =
      (declaredItems ctx d).map fun items => .blank :: stepsOf items := by
    rw [writeDeclared_eq]
    cases declaredItems ctx d <;> rfl
  have services (s : Schema.Service) :
      (do return Step.blank :: (← writeService ctx.options (← Service.ofSchema ctx s))) =
        (do return serviceItems ctx.options (← Service.ofSchema ctx s)).map fun items => .blank :: stepsOf items := by
    have mapped := writeMapped_eq ctx s
    cases h : Service.ofSchema ctx s with
    | error => rfl
    | ok service =>
      rw [h] at mapped
      exact congrArg (Except.map (Step.blank :: ·)) mapped
  have front : writeHeader ctx = stepsOf (header ctx) := rfl
  have unmarked : helpersOf (header ctx) = [] := rfl
  rw [writeFile, fileItems, mapM_map declared, mapM_map services]
  cases ctx.file.declarations.mapM (declaredItems ctx) with
  | error e => rfl
  | ok ds =>
    cases ctx.file.services.mapM fun s => do return serviceItems ctx.options (← Service.ofSchema ctx s) with
    | error e => rfl
    | ok ss =>
      have items : writeHeader ctx ++ (ds.map (.blank :: stepsOf ·) ++ ss.map (.blank :: stepsOf ·)).flatten =
          stepsOf (header ctx ++ (ds ++ ss).flatMap (.blank :: ·)) := by
        simp [front, ← List.flatMap_def]
      have marks : marksOf (stepsOf (header ctx ++ (ds ++ ss).flatMap (.blank :: ·))) =
          helpersOf ((ds ++ ss).flatMap (.blank :: ·)) := by
        rw [stepsOf_append, marksOf_append, marksOf_stepsOf, marksOf_stepsOf, unmarked, List.nil_append]
      change (do
        let path ← timestampPath ctx (Helper.needed _ (marksOf (_ ++ _)))
        return _) = _
      rw [items, marks]
      rfl

-- The index of modules

mutual

theorem writeModule_eq (name : String) (m : Module) : writeModule name m = stepsOf (m.code name) := by
  match m with
  | .file =>
    rw [writeModule, Module.code]
    split <;> rfl
  | .directory children =>
    rw [writeModule, Module.code, writeModules_eq children]
    split <;> simp

theorem writeModules_eq (level : List (String × Module)) : writeModules level = stepsOf (Module.codeAll level) := by
  match level with
  | [] => rfl
  | (name, m) :: rest => rw [writeModules, Module.codeAll, writeModule_eq name m, writeModules_eq rest, stepsOf_append]

end

theorem indexText?_eq (names : List String) : indexText? names = (moduleIndex? names).map textOf := by
  rw [indexText?, writeIndex?, moduleIndex?]
  cases Module.ofFiles? names with
  | none => rfl
  | some level =>
    have steps : [.line "// Code generated by protoc-gen-protoweave. DO NOT EDIT.", .blank] ++ writeModules level =
        stepsOf ([.line "// Code generated by protoc-gen-protoweave. DO NOT EDIT.", .blank] ++
          Module.codeAll level) := by
      simp [writeModules_eq]
    exact congrArg (fun steps => some (Writer.empty.run steps).text) steps

end Protogen.Code
