import Mathlib.Data.Set.Operations
import Protogen.Code.File
import Protogen.Proofs.Target.Mapping

set_option autoImplicit false

namespace Protogen

@[simp]
theorem Target.Member.forall_iff {p : Target.Member → Prop} :
    (∀ member, p member) ↔ (∀ f, p (.field f)) ∧ ∀ u, p (.union u) :=
  ⟨fun each => ⟨fun f => each (.field f), fun u => each (.union u)⟩, fun ⟨fields, unions⟩ member =>
    match member with
    | .field f => fields f
    | .union u => unions u⟩

namespace Code

open Schema (Index)
open Target (Base Child Container Field Member Primitive Struct Union)

variable {index : Index}

def Helper.Allowed (index : Index) (h : Helper) : Prop :=
  h.needsTimestamp = true → ∃ e, index.find? Target.timestampName = some e

def Line.Allowed (index : Index) (l : Line) : Prop :=
  ∀ h, .helper h ∈ l.pieces → h.Allowed index

def Block.Allowed (index : Index) (b : Block) : Prop :=
  ∀ l ∈ b.lines, l.Allowed index

def Allowed (index : Index) (code : List Block) : Prop :=
  ∀ b ∈ code, b.Allowed index

namespace Line

@[simp]
theorem allowed_append {l l' : Line} : (l ++ l').Allowed index ↔ l.Allowed index ∧ l'.Allowed index := by
  change (∀ h, .helper h ∈ l.pieces ++ l'.pieces → _) ↔ _
  simp only [List.mem_append, or_imp, forall_and, Allowed]

@[simp]
theorem allowed_piece {p : Piece} : Line.Allowed index ⟨[p]⟩ ↔ ∀ h, p = .helper h → h.Allowed index := by
  simp [Allowed, eq_comm]

end Line

namespace Block

@[simp]
theorem allowed_line {l : Line} : (Block.line l).Allowed index ↔ l.Allowed index := by
  simp [Allowed, lines]

@[simp]
theorem allowed_blank : Block.blank.Allowed index := by
  simp [Allowed, lines]

end Block

theorem linesOf_eq (code : List Block) : linesOf code = code.flatMap Block.lines := by
  induction code with
  | nil => rfl
  | cons b code ih => rw [linesOf, ih, List.flatMap_cons]

@[simp]
theorem Block.allowed_block {header : Line} {body : List Block} {closer : String} :
    (Block.block header body closer).Allowed index ↔ header.Allowed index ∧ Code.Allowed index body := by
  simp only [Block.Allowed, lines, linesOf_eq, List.forall_mem_cons, List.forall_mem_flatMap, Code.Allowed]

@[simp]
theorem Block.allowed_hang {opener : Line} {body : List Block} {closer : String} :
    (Block.hang opener body closer).Allowed index ↔ opener.Allowed index ∧ Code.Allowed index body := by
  simp only [Block.Allowed, lines, linesOf_eq, List.forall_mem_cons, List.forall_mem_flatMap, Code.Allowed]

@[simp]
theorem allowed_block {header : Line} {body : List Block} :
    (block header body).Allowed index ↔ header.Allowed index ∧ Allowed index body :=
  Block.allowed_block

@[simp]
theorem allowed_nil : Allowed index [] := by
  simp [Allowed]

@[simp]
theorem allowed_cons {b : Block} {code : List Block} :
    Allowed index (b :: code) ↔ b.Allowed index ∧ Allowed index code := by
  simp [Allowed]

@[simp]
theorem allowed_append {code code' : List Block} :
    Allowed index (code ++ code') ↔ Allowed index code ∧ Allowed index code' :=
  List.forall_mem_append

@[simp]
theorem allowed_map {α : Type} {f : α → Block} {as : List α} :
    Allowed index (as.map f) ↔ ∀ a ∈ as, (f a).Allowed index :=
  List.forall_mem_map

@[simp]
theorem allowed_flatMap {α : Type} {f : α → List Block} {as : List α} :
    Allowed index (as.flatMap f) ↔ ∀ a ∈ as, Allowed index (f a) :=
  List.forall_mem_flatMap

theorem allowed_writeCall (p : Primitive) (v : Value) : (writeCall p v).Allowed index := by
  match p with
  | .scalar k => cases k <;> simp [writeCall]
  | .long k form => cases form <;> simp [writeCall, Helper.Allowed, Helper.needsTimestamp]
  | .enum .. => simp [writeCall]

theorem allowed_childMessage {c : Child} (indexed : Base.Indexed index (.child c)) (v : Value) :
    (childMessage c v).Allowed index := by
  match c with
  | .message .. | .wrapper .. => simp [childMessage]
  | .timestamp _ _ form => cases form <;> simp_all [childMessage, Helper.Allowed, Base.Indexed]

theorem allowed_writeRecord {f : Field} (indexed : f.base.Indexed index) (v : Value) :
    Allowed index (writeRecord f v) := by
  rw [writeRecord]
  split
  next c child =>
    rw [child] at indexed
    simp [delimited, tagOf, allowed_childMessage indexed]
  next p _ => simp [tagOf, allowed_writeCall]

theorem allowed_encodeField {f : Field} (indexed : f.base.Indexed index) : Allowed index (encodeField f) := by
  rw [encodeField]
  split
  next => split <;> simp [allowed_writeRecord indexed]
  next => simp [allowed_writeRecord indexed]
  next =>
    split
    next => simp [allowed_writeRecord indexed]
    next => split <;> simp [allowed_writeRecord indexed, delimited, tagOf, allowed_writeCall]
  next => simp [delimited, tagOf]
  next => simp

def Known (index : Index) (s : Struct) : Prop :=
  ∀ f ∈ s.fields, f.base.Indexed index

theorem mem_of_mem_members {s : Struct} {f : Field} (member : Member.field f ∈ s.members) : f ∈ s.fields := by
  obtain ⟨⟨g, i⟩, listed, brought⟩ := List.mem_filterMap.1 member
  have own : g ∈ s.fields := List.mem_of_getElem? (List.mk_mem_zipIdx_iff_getElem?.1 listed)
  simp only [Struct.memberAt] at brought
  split at brought
  next =>
    -- The first field of a choice brings the choice with it, not itself.
    split at brought
    next => split at brought <;> simp at brought
    next => simp at brought
  next =>
    cases brought
    exact own

theorem mem_of_mem_variants {s : Struct} {u : Union} {p : String × Field} (member : p ∈ s.variants u) :
    p.2 ∈ s.fields := by
  obtain ⟨i, -, found⟩ := List.mem_filterMap.1 member
  split at found
  next f here =>
    split at found
    next =>
      cases found
      exact List.mem_of_getElem? here
    next => cases found
  next => cases found

theorem allowed_matchUnion {s : Struct} {u : Union} {arm : Field → List Block}
    (arms : ∀ f ∈ s.fields, Allowed index (arm f)) : (matchUnion s u arm).Allowed index := by
  simp only [matchUnion, allowed_block, allowed_append, allowed_map]
  refine ⟨by simp, ⟨fun p member => ?_, by simp⟩⟩
  simp [arms p.2 (mem_of_mem_variants member)]

theorem allowed_members {s : Struct} {code : Member → List Block}
    (fields : ∀ f ∈ s.fields, Allowed index (code (.field f))) (unions : ∀ u, Allowed index (code (.union u))) : Allowed index (s.members.flatMap code) := by
  simp only [allowed_flatMap]
  intro member listed
  cases member with
  | field f => exact fields f (mem_of_mem_members listed)
  | union u => exact unions u

theorem allowed_encodeFn {s : Struct} (known : Known index s) : (encodeFn s).Allowed index := by
  rw [encodeFn]
  split
  next => simp
  next =>
    simp only [allowed_block, allowed_append]
    refine ⟨by simp, allowed_members (fun f member => ?_) fun u => ?_, by simp⟩
    · exact allowed_encodeField (known f member)
    · simpa [encodeMember] using allowed_matchUnion fun f member => allowed_writeRecord (known f member) (.ref "v")

theorem allowed_readValue {b : Base} (indexed : b.Indexed index) : (readValue b).Allowed index := by
  match b with
  | .primitive (.scalar _) => simp [readValue]
  | .primitive (.long _ form) => cases form <;> simp [readValue]
  | .primitive (.enum _ byName _ _) => cases byName <;> simp [readValue]
  | .child (.message _ _ boxed) => cases boxed <;> simp [readValue]
  | .child (.wrapper _ _) => simp [readValue]
  | .child (.timestamp _ _ form) => cases form <;> simp_all [readValue, Helper.Allowed, Base.Indexed]

theorem allowed_setUnion {s : Struct} {choice : Nat} {variant : String} {value : Line}
    (allowed : value.Allowed index) : Allowed index (setUnion s choice variant value) := by
  rw [setUnion]
  split <;> simp [allowed]

theorem allowed_clearSiblings (s : Struct) (f : Field) : Allowed index (clearSiblings s f) := by
  simp [clearSiblings]

theorem allowed_decodeArm {s : Struct} {f : Field} (indexed : f.base.Indexed index) :
    (decodeArm s f).Allowed index := by
  have value := allowed_readValue indexed
  simp only [decodeArm, allowed_block]
  refine ⟨by simp, ?_⟩
  split
  next => simp [value]
  next => simp [value, allowed_clearSiblings]
  next => split <;> simp [value]
  next => split <;> simp
  next => exact allowed_setUnion value

theorem allowed_decodeFn {s : Struct} (known : Known index s) : (decodeFn s).Allowed index := by
  rw [decodeFn]
  split
  next => simp
  next => simpa using fun f member => allowed_decodeArm (known f member)

theorem allowed_fromJsonValue (p : Primitive) (value : String) : (fromJsonValue p value).Allowed index := by
  match p with
  | .scalar k => cases k <;> simp [fromJsonValue, Helper.Allowed, Helper.needsTimestamp]
  | .long _ form => cases form <;> simp [fromJsonValue, Helper.Allowed, Helper.needsTimestamp]
  | .enum .. => simp [fromJsonValue]

theorem allowed_fromJson {b : Base} (indexed : b.Indexed index) (value : String) :
    (fromJson b value).Allowed index := by
  match b with
  | .primitive p | .child (.wrapper _ p) => exact allowed_fromJsonValue p value
  | .child (.message _ _ boxed) => cases boxed <;> simp [fromJson]
  | .child (.timestamp ..) => simp_all [fromJson, Helper.Allowed, Base.Indexed]

theorem allowed_toJsonValue (p : Primitive) (v : Value) : (toJsonValue p v).Allowed index := by
  match p with
  | .scalar k => cases k <;> simp [toJsonValue, Helper.Allowed, Helper.needsTimestamp]
  | .long _ form => cases form <;> simp [toJsonValue]
  | .enum _ byName _ _ => cases byName <;> simp [toJsonValue]

theorem allowed_toJson {b : Base} (indexed : b.Indexed index) (v : Value) : (toJson b v).Allowed index := by
  match b with
  | .primitive p | .child (.wrapper _ p) => exact allowed_toJsonValue p v
  | .child (.message ..) => simp [toJson]
  | .child (.timestamp _ _ form) => cases form <;> simp_all [toJson, Helper.Allowed, Base.Indexed]

theorem allowed_fromJsonField {s : Struct} {f : Field} (indexed : f.base.Indexed index) :
    (fromJsonField s f).Allowed index := by
  have value := allowed_fromJson indexed
  simp only [fromJsonField, allowed_block]
  refine ⟨by simp, ?_⟩
  split
  next => simp [value]
  next => simp [value, allowed_clearSiblings]
  next => simp [value]
  next => simp [value]
  next => exact allowed_setUnion (value "value")

theorem allowed_toJsonField {f : Field} (indexed : f.base.Indexed index) : Allowed index (toJsonField f) := by
  have value := allowed_toJson indexed
  rw [toJsonField]
  split <;> simp [insertKey, value]

theorem allowed_jsonImpl {s : Struct} (known : Known index s) : Allowed index (jsonImpl s) := by
  have reader : (fromJsonFn s).Allowed index := by
    rw [fromJsonFn]
    split
    next => simp
    next => simpa using fun f member => allowed_fromJsonField (known f member)
  have writer : (toJsonFn s).Allowed index := by
    rw [toJsonFn]
    split
    next => simp
    next =>
      simp only [allowed_block, allowed_append]
      refine ⟨by simp, ⟨by simp, allowed_members (fun f member => ?_) fun u => ?_⟩, by simp⟩
      · exact allowed_toJsonField (known f member)
      · have arms : ∀ f ∈ s.fields, Allowed index [insertKey f (toJson f.base (.ref "v"))] := fun f member => by
          simp [insertKey, allowed_toJson (known f member)]
        simpa [toJsonMember] using allowed_matchUnion arms
  simp [jsonImpl, reader, writer]

-- Items that call no helpers.

@[simp]
theorem allowed_nameAttribute (symbol : String) : Allowed index (nameAttribute symbol) := by
  rw [nameAttribute]
  split <;> simp

@[simp]
theorem allowed_structWith {symbol : String} {members : List Block} :
    (structWith symbol members).Allowed index ↔ Allowed index members := by
  cases members <;> simp [structWith]

@[simp]
theorem allowed_choiceItem {symbol : String} {variants : List Block} :
    Allowed index (choiceItem symbol variants) ↔ Allowed index variants := by
  simp [choiceItem]

theorem allowed_structItem (s : Struct) : Allowed index (structItem s) := by
  simp [structItem]

theorem allowed_defaultImpl (s : Struct) : Allowed index (defaultImpl s) := by
  rw [defaultImpl]
  split <;> simp

theorem allowed_partialItem (s : Struct) : Allowed index (partialItem s) := by
  simp [partialItem]

@[simp]
theorem allowed_assign (f : Field) : (assign f).Allowed index := by
  simp [assign]

@[simp]
theorem allowed_assignUnion (s : Struct) (u : Union) : (assignUnion s u).Allowed index := by
  simp [assignUnion]

theorem allowed_fromPartialImpl (s : Struct) : Allowed index (fromPartialImpl s) := by
  rw [fromPartialImpl]
  split <;> simp [assignMember]

theorem allowed_messageItems {s : Struct} (known : Known index s) (options : Options) :
    Allowed index (messageItems options s) := by
  simp only [messageItems, allowed_append]
  refine ⟨⟨⟨⟨⟨?_, by simp⟩, ?_⟩, ?_⟩, ?_⟩, ?_⟩
  · exact allowed_structItem s
  · exact allowed_defaultImpl s
  · split <;> simp [messageImpl, allowed_encodeFn known, allowed_decodeFn known]
  · split <;> simp [allowed_jsonImpl known]
  · split <;> simp [allowed_partialItem, allowed_fromPartialImpl]

theorem allowed_enumItem (options : Options) (e : Target.Enumeration) : Allowed index (enumItem options e) := by
  rw [enumItem]
  split
  next => cases options.jsonEnums <;> simp [variantEnum, derives, nameFn, nameArms, number]
  next => cases options.jsonEnums <;> simp [numberEnum, derives, nameFn, nameArms, number, Line.braced]

theorem allowed_provided (b : Target.BatchMethod) : Allowed index (provided b) := by
  simp [provided, bulkRequest]

theorem allowed_serviceTrait (s : Target.Service) : (serviceTrait s).Allowed index := by
  simp [serviceTrait, allowed_provided]

theorem allowed_intersperse {b : Block} {code : List Block} (plain : b.Allowed index) (allowed : Allowed index code) :
    Allowed index (code.intersperse b) := by
  induction code using List.twoStepInduction with
  | nil => simp
  | singleton b' => simpa using allowed
  | cons_cons b' b'' code ih _ => simp_all

theorem allowed_clientImpl (s : Target.Service) {body : Target.Method → List Block}
    (plain : ∀ m, Allowed index (body m)) : (clientImpl s body).Allowed index := by
  simp only [clientImpl, allowed_block, allowed_append]
  refine ⟨by simp, allowed_intersperse (by simp) ?_, ?_⟩
  · simp [plain]
  · simp [loaded]

theorem allowed_rpcClient (s : Target.Service) : Allowed index (rpcClient s) := by
  simp only [rpcClient, allowed_cons]
  refine ⟨?client, by simp, ?constructor, by simp, allowed_clientImpl s fun m => ?_, by simp⟩
  case client => simp [loaderMember]
  case constructor => simp [makeLoader, bulkRequest, newClient]
  rw [rpcCall]
  cases m.clientStreaming <;> cases m.serverStreaming <;> simp

theorem allowed_grpcClient (s : Target.Service) : Allowed index (grpcClient s) := by
  simp only [grpcClient, allowed_append, allowed_cons]
  refine ⟨?descriptors, by simp, ?client, by simp, ?constructor, by simp, allowed_clientImpl s fun m => ?_, by simp⟩
  case descriptors => simp [methodDescriptor]
  case client => simp [loaderMember]
  case constructor => simp [makeLoader, bulkRequest, newClient]
  rw [grpcCall]
  cases m.clientStreaming <;> cases m.serverStreaming <;> simp

theorem allowed_serviceItems (options : Options) (s : Target.Service) : Allowed index (serviceItems options s) := by
  simp only [serviceItems, allowed_append]
  refine ⟨by simp [allowed_serviceTrait], ?_⟩
  split <;> simp [allowed_rpcClient, allowed_grpcClient]

theorem mem_helpersOf {code : List Block} {h : Helper} (called : h ∈ helpersOf code) :
    ∃ b ∈ code, ∃ l ∈ b.lines, .helper h ∈ l.pieces := by
  rw [helpersOf, linesOf_eq] at called
  obtain ⟨l, line, named⟩ := List.mem_flatMap.1 called
  obtain ⟨b, member, line⟩ := List.mem_flatMap.1 line
  obtain ⟨p, piece, found⟩ := List.mem_filterMap.1 named
  cases p <;> cases found
  exact ⟨b, member, l, line, piece⟩

theorem Allowed.helpers {code : List Block} (allowed : Allowed index code) :
    ∀ h ∈ helpersOf code, h.Allowed index := by
  intro h called
  obtain ⟨b, member, l, line, piece⟩ := mem_helpersOf called
  exact allowed b member l line h piece

namespace Helper

variable {long : LongOption} {r h : Helper} {used called : List Helper}

-- A helper that does not name the timestamp message calls none that does.
theorem needsTimestamp_of_closure (member : r ∈ h.closure long) (names : r.needsTimestamp = true) :
    h.needsTimestamp = true := by
  revert r
  cases long <;> cases h <;> decide

def Closed (long : LongOption) (set : Set Helper) : Prop :=
  ∀ h ∈ set, ∀ r ∈ h.requires long, r ∈ set

theorem mem_closure_self : h ∈ h.closure long :=
  List.mem_cons_self

theorem requires_subset_closure (long : LongOption) (h : Helper) :
    ∀ r ∈ h.closure long, ∀ r' ∈ r.requires long, r' ∈ h.closure long := by
  cases long <;> cases h <;> decide

theorem mem_closure_iff : r ∈ h.closure long ↔ r = h ∨ ∃ next ∈ h.requires long, r ∈ next.closure long := by
  have reached : ∀ next ∈ h.requires long, ∀ r ∈ next.closure long, r ∈ h.closure long := by
    cases long <;> cases h <;> decide
  constructor
  · revert r
    cases long <;> cases h <;> decide
  · rintro (rfl | ⟨next, required, callee⟩)
    · exact mem_closure_self
    · exact reached next required r callee

theorem Closed.closure_subset {set : Set Helper} (closed : Closed long set) (member : h ∈ set) :
    ∀ r ∈ h.closure long, r ∈ set := by
  have deep (depth : Nat) : ∀ h ∈ set, ∀ r ∈ callees long depth h, r ∈ set := by
    induction depth with
    | zero => exact fun h member => List.forall_mem_singleton.2 member
    | succ depth ih =>
      intro h member r callee
      rw [callees, List.mem_cons, List.mem_flatMap] at callee
      obtain rfl | ⟨next, required, callee⟩ := callee
      · exact member
      · exact ih next (closed h member next required) r callee
  exact deep 3 h member

theorem mark_eq (long : LongOption) (used : List Helper) (h : Helper) :
    mark long used h = if used.contains h then used else (h.requires long).foldl (mark long) (used ++ [h]) := by
  rw [mark]
  congr 1
  exact List.foldl_attach ..

-- While the marks of helpers of rank `n` and above are at work, those of a lower rank have brought what they call.
def ClosedBelow (long : LongOption) (n : Nat) (used : List Helper) : Prop :=
  ∀ h ∈ used, h.rank < n → ∀ r ∈ h.requires long, r ∈ used

section Marks

variable {n : Nat}

-- A mark of this helper adds it with all that it calls.
def Marks (long : LongOption) (n : Nat) (h : Helper) : Prop :=
  ∀ used, ClosedBelow long n used → ∀ r, r ∈ mark long used h ↔ r ∈ used ∨ r ∈ h.closure long

theorem ClosedBelow.closure_subset (closed : ClosedBelow long n used) (low : h.rank < n) (member : h ∈ used) :
    ∀ r ∈ h.closure long, r ∈ used := by
  have below : Closed long {r | r ∈ used ∧ r.rank < n} := fun q marked r required =>
    ⟨closed q marked.1 marked.2 r required, Nat.lt_trans (rank_lt required) marked.2⟩
  exact fun r callee => (below.closure_subset ⟨member, low⟩ r callee).1

theorem ClosedBelow.mark (closed : ClosedBelow long n used) (marks : Marks long n h) :
    ClosedBelow long n (mark long used h) := by
  intro q marked low r required
  rw [marks used closed] at marked ⊢
  exact marked.imp (closed q · low r required) (requires_subset_closure long h q · r required)

theorem mem_foldl_mark_iff (marks : ∀ h ∈ called, Marks long n h) (closed : ClosedBelow long n used) :
    r ∈ called.foldl (mark long) used ↔ r ∈ used ∨ ∃ h ∈ called, r ∈ h.closure long := by
  induction called generalizing used with
  | nil => simp
  | cons h called ih =>
    rw [List.forall_mem_cons] at marks
    rw [List.foldl_cons, ih marks.2 (closed.mark marks.1), marks.1 used closed, List.exists_mem_cons_iff, or_assoc]

theorem marks_of_rank (low : h.rank < n) : Marks long n h := by
  induction h using (measure rank).wf.induction generalizing n with
  | _ h ih =>
    intro used closed r
    rw [mark_eq]
    split
    next marked =>
      have known := closed.closure_subset low (List.contains_iff_mem.1 marked) r
      exact ⟨.inl, fun either => either.elim id known⟩
    next =>
      -- The helper is marked first, so that those of its rank are no more than all at work; what it calls is lower.
      have lower : ClosedBelow long h.rank (used ++ [h]) := by
        intro q marked below r required
        obtain marked | rfl := List.mem_append.1 marked |>.imp id List.mem_singleton.1
        · exact List.mem_append_left _ (closed q marked (Nat.lt_trans below low) r required)
        · exact absurd below (Nat.lt_irrefl _)
      have callees : ∀ next ∈ h.requires long, Marks long h.rank next := fun next required =>
        ih next (rank_lt required) (rank_lt required)
      rw [mem_foldl_mark_iff callees lower, List.mem_append, List.mem_singleton, mem_closure_iff, or_assoc]

end Marks

theorem mem_all (h : Helper) : h ∈ all := by
  cases h <;> decide

theorem mem_needed_iff : r ∈ needed long called ↔ ∃ h ∈ called, r ∈ h.closure long := by
  have marks : ∀ h ∈ called, Marks long 4 h := fun h _ => marks_of_rank (by cases h <;> decide)
  have empty : ClosedBelow long 4 [] := nofun
  simp [needed, mem_all, mem_foldl_mark_iff marks empty]

end Helper

end Code

end Protogen
