import Protogen.Code.File
import Protogen.Proofs.Code.Records

set_option autoImplicit false

namespace Protogen.Code

open Target (Base BatchMethod Child Enumeration Field Member Method Primitive Service Struct Union)

@[simp]
def Piece.literal? : Piece → Option String
  | literal s => some s
  | _ => none

def literals (code : List Block) : List String :=
  gathered Piece.literal? code

def Line.literals (l : Line) : List String :=
  l.pieces.filterMap Piece.literal?

def Block.literals (b : Block) : List String :=
  Code.literals [b]

section Simp

variable {l l' : Line} {b : Block} {code code' body : List Block}

@[simp]
theorem Line.literals_append : (l ++ l').literals = l.literals ++ l'.literals :=
  List.filterMap_append

@[simp]
theorem Line.literals_piece (p : Piece) : Line.literals ⟨[p]⟩ = p.literal?.toList := by
  rw [Line.literals, List.filterMap_cons]
  cases p.literal? <;> rfl

@[simp]
theorem Block.literals_line : (Block.line l).literals = l.literals := by
  rw [Block.literals, Code.literals, gathered_line, gathered_nil, List.append_nil, Line.literals]

@[simp]
theorem Block.literals_blank : Block.blank.literals = [] :=
  rfl

theorem literals_eq (code : List Block) : literals code = code.flatMap Block.literals := by
  rw [literals, ← List.flatMap_singleton' code, gathered_flatMap, List.flatMap_singleton']
  rfl

@[simp]
theorem Block.literals_block {closer : String} :
    (Block.block l body closer).literals = l.literals ++ Code.literals body := by
  simp [Block.literals, Code.literals, gathered, linesOf, Block.lines, Line.literals]

@[simp]
theorem Block.literals_hang {closer : String} :
    (Block.hang l body closer).literals = l.literals ++ Code.literals body := by
  simp [Block.literals, Code.literals, gathered, linesOf, Block.lines, Line.literals]

@[simp]
theorem literals_block : (block l body).literals = l.literals ++ Code.literals body :=
  Block.literals_block

@[simp]
theorem literals_nil : literals [] = [] :=
  rfl

@[simp]
theorem literals_cons : literals (b :: code) = b.literals ++ literals code := by
  rw [literals_eq, literals_eq, List.flatMap_cons]

@[simp]
theorem literals_append : literals (code ++ code') = literals code ++ literals code' :=
  gathered_append code code'

@[simp]
theorem literals_map {α : Type} (f : α → Block) (as : List α) :
    literals (as.map f) = as.flatMap fun a => (f a).literals := by
  rw [literals_eq, List.flatMap_map]

@[simp]
theorem literals_flatMap {α : Type} (f : α → List Block) (as : List α) :
    literals (as.flatMap f) = as.flatMap fun a => literals (f a) :=
  gathered_flatMap f as

end Simp

@[simp]
theorem flatMap_empty {α β : Type} (as : List α) : (as.flatMap fun _ => []) = ([] : List β) := by
  simp

@[simp]
theorem literals_writeCall (p : Primitive) (v : Value) : (writeCall p v).literals = [] := by
  match p with
  | .scalar k => cases k <;> simp [writeCall]
  | .long _ form => cases form <;> simp [writeCall]
  | .enum .. => simp [writeCall]

@[simp]
theorem literals_childMessage (c : Child) (v : Value) : (childMessage c v).literals = [] := by
  match c with
  | .message .. | .wrapper .. => simp [childMessage]
  | .timestamp _ _ form => cases form <;> simp [childMessage]

@[simp]
theorem literals_writeRecord (f : Field) (v : Value) : literals (writeRecord f v) = [] := by
  rw [writeRecord]
  split <;> simp [delimited, tagOf]

@[simp]
theorem literals_encodeField (f : Field) : literals (encodeField f) = [] := by
  rw [encodeField]
  split
  next => split <;> simp
  next => simp
  next =>
    split
    next => simp
    next => split <;> simp [delimited, tagOf]
  next => simp [delimited, tagOf]
  next => simp

@[simp]
theorem literals_matchUnion (s : Struct) (u : Union) (arm : Field → List Block) :
    (matchUnion s u arm).literals = (s.written (.union u)).flatMap fun f => literals (arm f) := by
  simp [matchUnion, Struct.written, List.flatMap_map]

@[simp]
theorem literals_encodeFn (s : Struct) : (encodeFn s).literals = [] := by
  rw [encodeFn]
  split
  next => simp
  next =>
    simp only [literals_block, literals_append, literals_flatMap]
    simp [encodeMember]

@[simp]
theorem literals_readValue (b : Base) : (readValue b).literals = [] := by
  match b with
  | .primitive (.scalar _) => simp [readValue]
  | .primitive (.long _ form) => cases form <;> simp [readValue]
  | .primitive (.enum _ byName _ _) => cases byName <;> simp [readValue]
  | .child (.message _ _ boxed) => cases boxed <;> simp [readValue]
  | .child (.wrapper _ _) => simp [readValue]
  | .child (.timestamp _ _ form) => cases form <;> simp [readValue]

@[simp]
theorem literals_setUnion (s : Struct) (choice : Nat) (variant : String) (value : Line) : 
    literals (setUnion s choice variant value) = (s.union? choice).toList.flatMap fun _ => value.literals := by
  rw [setUnion]
  split
  next found => simp [found]
  next none => simp [none]

@[simp]
theorem literals_clearSiblings (s : Struct) (f : Field) : literals (clearSiblings s f) = [] := by
  simp [clearSiblings]

@[simp]
theorem literals_decodeArm (s : Struct) (f : Field) : (decodeArm s f).literals = [] := by
  simp only [decodeArm, literals_block]
  split
  next => simp
  next => simp
  next => split <;> simp
  next => split <;> simp
  next => simp

@[simp]
theorem literals_decodeFn (s : Struct) : (decodeFn s).literals = [] := by
  rw [decodeFn]
  split <;> simp

@[simp]
theorem literals_fromJsonValue (p : Primitive) (value : String) : (fromJsonValue p value).literals = [] := by
  match p with
  | .scalar k => cases k <;> simp [fromJsonValue]
  | .long _ form => cases form <;> simp [fromJsonValue]
  | .enum .. => simp [fromJsonValue]

@[simp]
theorem literals_fromJson (b : Base) (value : String) : (fromJson b value).literals = [] := by
  match b with
  | .primitive p | .child (.wrapper _ p) => exact literals_fromJsonValue p value
  | .child (.message _ _ boxed) => cases boxed <;> simp [fromJson]
  | .child (.timestamp ..) => simp [fromJson]

@[simp]
theorem literals_toJsonValue (p : Primitive) (v : Value) : (toJsonValue p v).literals = [] := by
  match p with
  | .scalar k => cases k <;> simp [toJsonValue]
  | .long _ form => cases form <;> simp [toJsonValue]
  | .enum _ byName _ _ => cases byName <;> simp [toJsonValue]

@[simp]
theorem literals_toJson (b : Base) (v : Value) : (toJson b v).literals = [] := by
  match b with
  | .primitive p | .child (.wrapper _ p) => exact literals_toJsonValue p v
  | .child (.message ..) => simp [toJson]
  | .child (.timestamp _ _ form) => cases form <;> simp [toJson]

-- The codec of JSON has the key of each field twice: where it is read, and where it is written.

theorem literals_fromJsonField (s : Struct) (f : Field) : (fromJsonField s f).literals = [f.jsonKey] := by
  simp only [fromJsonField, literals_block]
  split <;> simp

@[simp]
theorem literals_insertKey (f : Field) (value : Line) :
    (insertKey f value).literals = f.jsonKey :: value.literals := by
  simp [insertKey]

theorem literals_toJsonField {f : Field} (plain : f.union? = none) : literals (toJsonField f) = [f.jsonKey] := by
  rw [toJsonField]
  split
  next => simp
  next => simp
  next => simp
  next => simp
  next union => simp [Field.union?, union] at plain

theorem literals_fromJsonFn (s : Struct) : (fromJsonFn s).literals = s.fields.map (·.jsonKey) := by
  rw [fromJsonFn]
  split
  next empty => simp [List.isEmpty_iff.1 empty]
  next => simp [literals_fromJsonField, List.map_eq_flatMap]

theorem literals_toJsonFn (s : Struct) :
    (toJsonFn s).literals = (s.members.flatMap s.written).map (·.jsonKey) := by
  rw [toJsonFn]
  split
  next empty =>
    have none : s.members = [] := by rw [Struct.members, List.isEmpty_iff.1 empty]; rfl
    simp [none]
  next =>
    simp only [literals_block, literals_append, literals_flatMap, List.map_flatMap]
    simp
    refine List.flatMap_congr fun member listed => ?_
    cases member with
    | field f => simpa [toJsonMember, Struct.written] using literals_toJsonField (plain_of_mem_members listed)
    | union u => simp [toJsonMember, List.map_eq_flatMap]

@[simp]
theorem literals_nameAttribute (symbol : String) : literals (nameAttribute symbol) = [] := by
  rw [nameAttribute]
  split <;> simp

@[simp]
theorem literals_structWith (symbol : String) (members : List Block) :
    (structWith symbol members).literals = literals members := by
  cases members <;> simp [structWith]

@[simp]
theorem literals_choiceItem (symbol : String) (variants : List Block) :
    literals (choiceItem symbol variants) = literals variants := by
  simp [choiceItem]

@[simp]
theorem literals_structItem (s : Struct) : literals (structItem s) = [] := by
  simp [structItem]

@[simp]
theorem literals_defaultImpl (s : Struct) : literals (defaultImpl s) = [] := by
  rw [defaultImpl]
  split <;> simp

@[simp]
theorem literals_partialItem (s : Struct) : literals (partialItem s) = [] := by
  simp [partialItem]

@[simp]
theorem literals_assign (f : Field) : (assign f).literals = [] := by
  simp [assign]

@[simp]
theorem literals_assignUnion (s : Struct) (u : Union) : (assignUnion s u).literals = [] := by
  simp [assignUnion]

@[simp]
theorem literals_fromPartialImpl (s : Struct) : literals (fromPartialImpl s) = [] := by
  rw [fromPartialImpl]
  split <;> simp [assignMember]

theorem literals_messageItems (options : Options) (s : Struct) : literals (messageItems options s) =
    if options.outputJson then (fromJsonFn s).literals ++ (toJsonFn s).literals else [] := by
  have encode : literals (if options.outputEncode then Block.blank :: messageImpl s else []) = [] := by
    split <;> simp [messageImpl]
  have part : literals (if options.outputPartial then .blank :: partialItem s ++ [.blank] ++ fromPartialImpl s
      else []) = [] := by
    split <;> simp
  simp only [messageItems, literals_append, encode, part]
  split <;> simp [jsonImpl]

theorem literals_nameFn (symbol : String) (names : List (String × String)) :
    (nameFn symbol names).literals = names.map (·.2) := by
  simp [nameFn, List.map_eq_flatMap]

theorem literals_nameArms (e : Enumeration) (value : Target.Variant → String) :
    literals (nameArms e value) = e.variants.flatMap (·.aliases) := by
  simp [nameArms]

theorem literals_enumItem (options : Options) (e : Enumeration) : literals (enumItem options e) =
    e.variants.map (·.written) ++ (if options.stringEnums && e.addsFallback then ["UNRECOGNIZED"] else []) ++
      e.variants.flatMap (·.aliases) := by
  rw [enumItem]
  split
  next named => 
    have names : e.names.map (·.2) = e.variants.map (·.written) ++ if e.addsFallback then ["UNRECOGNIZED"] else [] := by
      rw [Enumeration.names]
      split <;> simp
    cases options.jsonEnums <;> simp [variantEnum, derives, literals_nameFn, literals_nameArms, names, named]
  next other =>
    cases options.jsonEnums <;>
      simp [numberEnum, derives, literals_nameFn, literals_nameArms, Line.braced, other, Function.comp_def]

@[simp]
theorem literals_helper (long : LongOption) (timestamp : String) (h : Helper) :
    literals (h.code long timestamp) = [] := by
  cases h <;> cases long <;> simp [Helper.code, Helper.secondsFromDate, Helper.secondsToWord]

@[simp]
theorem literals_provided (b : BatchMethod) : literals (provided b) = [] := by
  simp [provided, bulkRequest]

@[simp]
theorem literals_serviceTrait (s : Service) : (serviceTrait s).literals = [] := by
  simp [serviceTrait]

@[simp]
theorem literals_makeLoader (b : BatchMethod) (captures : List String) (call : Line) :
    (makeLoader b captures call).literals = call.literals := by
  simp [makeLoader, bulkRequest]

@[simp]
theorem literals_loaderMember (b : BatchMethod) : (loaderMember b).literals = [] := by
  simp [loaderMember]

@[simp]
theorem literals_newClient (s : Service) (fields : List String) : (newClient s fields).literals = [] := by
  simp [newClient]

theorem literals_intersperse (code : List Block) : literals (code.intersperse .blank) = literals code := by
  induction code using List.twoStepInduction with
  | nil => rfl
  | singleton b => rfl
  | cons_cons b b' code _ ih => simpa using ih b'

theorem literals_clientImpl (s : Service) (texts : Method → List String) {body : Method → List Block}
    (each : ∀ m, literals (body m) = texts m) : (clientImpl s body).literals = s.methods.flatMap texts := by
  simp [clientImpl, literals_intersperse, loaded, each]

theorem literals_rpcClient (s : Service) :
    literals (rpcClient s) = s.batches.map (·.method.name) ++ s.methods.map (·.name) := by
  simp only [rpcClient, literals_cons]
  rw [literals_clientImpl s fun m => [m.name]]
  · simp [List.map_eq_flatMap]
  · intro m
    rw [rpcCall]
    cases m.clientStreaming <;> cases m.serverStreaming <;> simp

theorem literals_grpcClient (s : Service) : literals (grpcClient s) = s.methods.map (·.name) := by
  simp only [grpcClient, literals_append, literals_cons]
  rw [literals_clientImpl s fun _ => []]
  · simp [methodDescriptor, List.map_eq_flatMap]
  · intro m
    rw [grpcCall]
    cases m.clientStreaming <;> cases m.serverStreaming <;> simp

theorem literals_serviceItems (options : Options) (s : Service) : literals (serviceItems options s) =
    s.fullName :: match options.client with
      | .none => []
      | .rpc => s.batches.map (·.method.name) ++ s.methods.map (·.name)
      | .grpc => s.methods.map (·.name) := by
  rw [serviceItems]
  cases options.client <;> simp [literals_rpcClient, literals_grpcClient]

theorem literals_header (ctx : Target.Context) : literals (header ctx) = [ctx.file.package] := by
  simp [header]

theorem literals_helperItems {ctx : Target.Context} {items helpers : List Block}
    (written : helperItems ctx items = .ok helpers) : literals helpers = [] := by
  obtain ⟨timestamp, -, written⟩ := ok_of_bind written
  cases written
  simp

end Protogen.Code
