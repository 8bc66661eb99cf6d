import Protogen.Proofs.Compile.Generation

set_option autoImplicit false

namespace Protogen

namespace Code

open Target (BatchMethod Context Enumeration Field Service Struct Variant)

-- Steps

def Step.opens : Step → Bool
  | .opening _ | .indent => true
  | .line _ | .blank | .closing _ => false

def Step.closes : Step → Bool
  | .closing _ => true
  | .line _ | .blank | .opening _ | .indent => false

def opened (steps : List Step) : Nat :=
  steps.countP Step.opens

def closed (steps : List Step) : Nat :=
  steps.countP Step.closes

/-- At no point have steps closed more blocks than they have opened, and in the end they have closed all of them. -/
structure Balanced (steps : List Step) : Prop where
  closed_le : ∀ front, front <+: steps → closed front ≤ opened front
  closed_eq : closed steps = opened steps

section Steps

variable {w : Writer} {s : Step} {steps steps' : List Step}

theorem opened_append (steps steps' : List Step) : opened (steps ++ steps') = opened steps + opened steps' :=
  List.countP_append

theorem closed_append (steps steps' : List Step) : closed (steps ++ steps') = closed steps + closed steps' :=
  List.countP_append

theorem opened_closing (steps : List Step) (closer : String) : opened (steps ++ [.closing closer]) = opened steps :=
  opened_append steps _

theorem closed_closing (steps : List Step) (closer : String) : closed (steps ++ [.closing closer]) = closed steps + 1 :=
  closed_append steps _

theorem Step.exists_of_closes (closes : s.closes = true) : ∃ closer, s = .closing closer := by
  cases s with
  | closing closer => exact ⟨closer, rfl⟩
  | _ => cases closes

theorem opened_cons_of_opens (opens : s.opens = true) : opened (s :: steps) = opened steps + 1 :=
  List.countP_cons_of_pos opens

theorem closed_cons_of_opens (opens : s.opens = true) : closed (s :: steps) = closed steps := by
  cases s <;> simp_all [closed, Step.opens, Step.closes]

-- A step moves the depth by what it opens and closes, if it closes nothing where nothing is open.
theorem Writer.depth_step (inside : s.closes = true → w.depth ≠ 0) :
    (w.step s).depth + closed [s] = w.depth + opened [s] := by
  cases s
  case closing closer =>
    have inside := inside rfl
    change w.depth - 1 + 1 = w.depth
    omega
  all_goals rfl

theorem Writer.depth_run (above : ∀ front, front <+: steps → closed front ≤ w.depth + opened front) :
    (w.run steps).depth + closed steps = w.depth + opened steps := by
  induction steps using List.reverseRecOn with
  | nil => rfl
  | append_singleton steps s ih =>
    have before := ih fun front prior => above front (prior.trans (List.prefix_append ..))
    have bound := above _ List.prefix_rfl
    have last : ((w.run steps).step s).depth + closed [s] = (w.run steps).depth + opened [s] := by
      apply depth_step
      intro closes
      -- What is closed last has been opened before, by the bound for all steps.
      obtain ⟨closer, rfl⟩ := Step.exists_of_closes closes
      rw [closed_closing, opened_closing] at bound
      omega
    rw [run_append, closed_append, opened_append]
    change ((w.run steps).step s).depth + _ = _
    omega

namespace Balanced

theorem depth_front (balanced : Balanced steps) {front : List Step} (prior : front <+: steps) :
    (w.run front).depth + closed front = w.depth + opened front :=
  Writer.depth_run fun _ earlier =>
    Nat.le_add_left_of_le (balanced.closed_le _ (earlier.trans prior))

theorem depth_eq (balanced : Balanced steps) : (w.run steps).depth = w.depth := by
  have whole := balanced.depth_front (w := w) List.prefix_rfl
  have even := balanced.closed_eq
  omega

theorem le_depth (balanced : Balanced steps) {front : List Step} (prior : front <+: steps) :
    w.depth ≤ (w.run front).depth := by
  have counts := balanced.depth_front (w := w) prior
  have bound := balanced.closed_le _ prior
  omega

theorem depth_pos (balanced : Balanced steps) {front : List Step} {closer : String}
    (prior : front ++ [.closing closer] <+: steps) : 0 < (w.run front).depth := by
  have counts := balanced.depth_front (w := w) ((List.prefix_append ..).trans prior)
  have bound := balanced.closed_le _ prior
  rw [closed_closing, opened_closing] at bound
  omega

theorem nil : Balanced [] where
  closed_le _ prior := by rw [List.prefix_nil.1 prior]; rfl
  closed_eq := rfl

theorem append (balanced : Balanced steps) (balanced' : Balanced steps') : Balanced (steps ++ steps') where
  closed_le front prior := by
    obtain early | ⟨late, rfl⟩ := List.prefix_or_prefix_of_prefix prior (List.prefix_append steps steps')
    · exact balanced.closed_le front early
    · have bound := balanced'.closed_le late ((List.prefix_append_right_inj steps).1 prior)
      have even := balanced.closed_eq
      rw [closed_append, opened_append]
      omega
  closed_eq := by
    rw [closed_append, opened_append, balanced.closed_eq, balanced'.closed_eq]

theorem enclosed (opens : s.opens = true) (balanced : Balanced steps) (closer : String) :
    Balanced (s :: steps ++ [.closing closer]) where
  closed_le front prior := by
    rw [List.cons_append, List.prefix_cons_iff] at prior
    obtain rfl | ⟨front, rfl, prior⟩ := prior
    · exact Nat.le_refl 0
    rw [opened_cons_of_opens opens, closed_cons_of_opens opens]
    obtain rfl | prior := List.prefix_concat_iff.1 prior
    · rw [closed_closing, opened_closing, balanced.closed_eq]
    · exact Nat.le_succ_of_le (balanced.closed_le front prior)
  closed_eq := by
    rw [closed_closing, opened_closing, opened_cons_of_opens opens, closed_cons_of_opens opens, balanced.closed_eq]

theorem of_flat (flat : ∀ s ∈ steps, s.opens = false ∧ s.closes = false) : Balanced steps := by
  have none {front : List Step} (prior : front <+: steps) : closed front = 0 :=
    List.countP_eq_zero.2 fun s member => by simp [(flat s (prior.subset member)).2]
  refine ⟨fun front prior => (none prior).trans_le (Nat.zero_le _), (none List.prefix_rfl).trans ?_⟩
  exact (List.countP_eq_zero.2 fun s member => by simp [(flat s member).1]).symm

theorem flatMap {α : Type} {f : α → List Step} {as : List α} (each : ∀ a ∈ as, Balanced (f a)) :
    Balanced (as.flatMap f) := by
  induction as with
  | nil => exact nil
  | cons a as ih =>
    rw [List.forall_mem_cons] at each
    rw [List.flatMap_cons]
    exact each.1.append (ih each.2)

end Balanced

end Steps

mutual

theorem Block.balanced_steps (b : Block) : Balanced b.steps := by
  match b with
  | .line l => exact .of_flat (List.forall_mem_singleton.2 ⟨rfl, rfl⟩)
  | .blank => exact .of_flat (List.forall_mem_singleton.2 ⟨rfl, rfl⟩)
  | .block header body closer => exact .enclosed rfl (balanced_stepsOf body) closer
  | .hang opener body closer =>
    have opener : Balanced [.line opener] := .of_flat (List.forall_mem_singleton.2 ⟨rfl, rfl⟩)
    exact opener.append (.enclosed rfl (balanced_stepsOf body) closer)

theorem balanced_stepsOf (code : List Block) : Balanced (stepsOf code) := by
  match code with
  | [] => exact .nil
  | b :: bs => exact b.balanced_steps.append (balanced_stepsOf bs)

end

theorem balanced_fragmentSteps (text : String) : Balanced (fragmentSteps text) := by
  apply Balanced.of_flat
  simp [fragmentSteps, Step.opens, Step.closes]

theorem balanced_writeFile {ctx : Context} {steps : List Step} (written : writeFile ctx = .ok steps) :
    Balanced steps := by
  rw [writeFile_eq] at written
  obtain ⟨items, -, written⟩ := ok_of_bind written
  obtain ⟨path, -, written⟩ := ok_of_bind written
  cases written
  apply (balanced_stepsOf _).append
  apply Balanced.flatMap
  intro h _
  have blank : Balanced [.blank] := .of_flat (List.forall_mem_singleton.2 ⟨rfl, rfl⟩)
  exact blank.append (balanced_fragmentSteps _)

-- The texts of helpers are written without blocks, so all that are opened are in the items.
theorem opened_writeFile {ctx : Context} {steps : List Step} (written : writeFile ctx = .ok steps) :
    (fileItems ctx).map (fun items => opened (stepsOf items)) = .ok (opened steps) := by
  rw [writeFile_eq] at written
  obtain ⟨items, generated, written⟩ := ok_of_bind written
  obtain ⟨path, -, written⟩ := ok_of_bind written
  cases written
  have flat (text : String) : opened (fragmentSteps text) = 0 := by
    simp [opened, fragmentSteps, Step.opens]
  have helpers : ∀ helpers : List Helper,
      opened (helpers.flatMap fun h => .blank :: fragmentSteps (h.text ctx.options.long path)) = 0 := by
    intro helpers
    induction helpers with
    | nil => rfl
    | cons h helpers ih =>
      rw [List.flatMap_cons, List.cons_append, ← List.singleton_append, opened_append, opened_append, flat, ih]
      rfl
  rw [generated, stepsOf_append, opened_append, opened_append, helpers]
  exact congrArg Except.ok (Nat.zero_add _).symm

-- Routines

/-- A call of one of the functions that write a file, or a part of it. -/
inductive Routine where
  | header (ctx : Context)
  | symbolAttribute (symbol : String)
  | struct (s : Struct)
  | default (s : Struct)
  | names (symbol : String) (variants : List Variant) (extra : Option (String × String))
  | numberEnum (e : Enumeration) (json : EnumJson)
  | variantEnum (e : Enumeration) (json : EnumJson)
  | enum (options : Options) (e : Enumeration)
  | value (f : Field) (v : Value)
  | encodeField (f : Field)
  | encode (s : Struct)
  | decodeField (s : Struct) (f : Field)
  | decode (s : Struct)
  | messageImpl (s : Struct)
  | fromJsonField (s : Struct) (f : Field)
  | toJsonField (f : Field)
  | jsonImpl (s : Struct)
  | partialStruct (s : Struct)
  | assign (f : Field)
  | fromPartial (s : Struct)
  | trait (s : Service)
  | loader (b : BatchMethod) (captures : List String) (call : Line)
  | constructorTail (s : Service) (fields : List String)
  | overrides (s : Service)
  | descriptors (s : Service)
  | rpcClient (s : Service)
  | grpcClient (s : Service)
  | service (options : Options) (s : Service)
  | file (ctx : Context)
  | modules (level : List (String × Module))

namespace Routine

def calls : Routine → Except CompileError (List Step)
  | header ctx => .ok (writeHeader ctx)
  | symbolAttribute symbol => .ok (writeAttribute symbol)
  | struct s => .ok (writeStruct s)
  | default s => .ok (writeDefault s)
  | names symbol variants extra => .ok (writeNames symbol variants extra)
  | numberEnum e json => .ok (writeNumberEnum e json)
  | variantEnum e json => .ok (writeVariantEnum e json)
  | enum options e => .ok (writeEnum options e)
  | value f v => .ok (writeValue f v)
  | encodeField f => .ok (writeEncodeField f)
  | encode s => .ok (writeEncode s)
  | decodeField s f => writeDecodeField s f
  | decode s => writeDecode s
  | messageImpl s => writeMessageImpl s
  | fromJsonField s f => writeFromJsonField s f
  | toJsonField f => .ok (writeToJsonField f)
  | jsonImpl s => writeJsonImpl s
  | partialStruct s => .ok (writePartialStruct s)
  | assign f => .ok (writeAssign f)
  | fromPartial s => .ok (writeFromPartial s)
  | trait s => .ok (writeTrait s)
  | loader b captures call => .ok (writeLoader b captures call)
  | constructorTail s fields => .ok (writeConstructorTail s fields)
  | overrides s => .ok (writeOverrides s)
  | descriptors s => .ok (writeDescriptors s)
  | rpcClient s => writeRpcClient s
  | grpcClient s => writeGrpcClient s
  | service options s => writeService options s
  | file ctx => writeFile ctx
  | modules level => .ok (writeModules level)

theorem balanced {r : Routine} {steps : List Step} (written : r.calls = .ok steps) : Balanced steps := by
  cases r with
  | file ctx => exact balanced_writeFile written
  | decodeField s f => exact (writeDecodeField_eq_ok.1 written).2 ▸ Block.balanced_steps _
  | decode s => exact (writeDecode_eq_ok.1 written).2 ▸ Block.balanced_steps _
  | messageImpl s => exact (writeMessageImpl_eq_ok.1 written).2 ▸ balanced_stepsOf _
  | fromJsonField s f => exact (writeFromJsonField_eq_ok.1 written).2 ▸ Block.balanced_steps _
  | jsonImpl s => exact (writeJsonImpl_eq_ok.1 written).2 ▸ balanced_stepsOf _
  | rpcClient s => exact (writeRpcClient_eq_ok.1 written).2 ▸ balanced_stepsOf _
  | grpcClient s => exact (writeGrpcClient_eq_ok.1 written).2 ▸ balanced_stepsOf _
  | service options s => exact ((writeService_eq_ok options).1 written).2 ▸ balanced_stepsOf _
  -- The others do not fail, and write the steps of blocks.
  | _ =>
    obtain rfl := Except.ok.inj written
    simp only [writeHeader_eq, writeAttribute_eq, writeStruct_eq, writeDefault_eq, writeNames_eq, writeNumberEnum_eq,
      writeVariantEnum_eq, writeEnum_eq, writeValue_eq, writeEncodeField_eq, writeEncode_eq, writeToJsonField_eq,
      writePartialStruct_eq, writeAssign_eq, writeFromPartial_eq, writeTrait_eq, writeLoader_eq,
      writeConstructorTail_eq, writeOverrides_eq, writeDescriptors_eq, writeModules_eq, balanced_stepsOf,
      Block.balanced_steps]

end Routine

end Code

namespace Compile

open Code (Routine Unbroken Writer closed fileCode fileItems opened stepsOf writeFile)
open Schema (Index)

/-- While a file is written, as many blocks are open as have been opened and not been closed, and none is closed where
none is open. Each routine that writes leaves as many open as there were before, and closes none of these. What is
written are the blocks of the file, if the root of the modules is on one line. -/
theorem blocks_balanced {descriptors : List Descriptor.File} {files : List Schema.File} {index : Index}
    (built : indexed descriptors = .ok (files, index)) (verified : Schema.verify index files = .ok ())
    (groupless : ∀ f ∈ files, f.Groupless) (options : Options) {file : Schema.File} (member : file ∈ files) :
    ∃ steps code, writeFile ⟨options, index, file⟩ = .ok steps ∧ fileCode ⟨options, index, file⟩ = .ok code ∧
      (Unbroken options.moduleRoot → Writer.empty.run steps = Writer.empty.run (stepsOf code)) ∧
      (∀ front, front <+: steps → (Writer.empty.run front).depth + closed front = opened front) ∧
      (∀ front closer, front ++ [.closing closer] <+: steps → 0 < (Writer.empty.run front).depth) ∧
      (∀ (r : Routine) part, r.calls = .ok part → ∀ w : Writer, (w.run part).depth = w.depth ∧
        ∀ front, front <+: part → w.depth ≤ (w.run front).depth) ∧
      (Writer.empty.run steps).depth = 0 := by
  obtain ⟨code, generated⟩ := exists_fileCode built verified groupless options member
  obtain ⟨steps, written, same⟩ := Code.exists_writeFile (indexed_eq_ok.1 built).2 generated
  have balanced := Code.balanced_writeFile written
  refine ⟨steps, code, written, generated, same, ?counts, ?inside, ?routines, balanced.depth_eq⟩
  case counts => exact fun front prior => (balanced.depth_front prior).trans (Nat.zero_add _)
  case inside => exact fun front closer prior => balanced.depth_pos prior
  case routines =>
    intro r part called w
    exact ⟨(Routine.balanced called).depth_eq, fun front prior => (Routine.balanced called).le_depth prior⟩

set_option maxRecDepth 3000 in
theorem opened_shopSchema : (Index.ofFiles [shopSchema] >>= fun index =>
    (fileItems ⟨{ choice := .unions }, index, shopSchema⟩).map fun items => opened (stepsOf items)) = .ok 124 := by
  simp only [Index.ofFiles, fileItems, List.flatMap_cons, List.flatMap_nil, Schema.File.declarations_eq]
  rfl

-- A union, a map and a client with a loader open 124 blocks, none of which is open in the end.
theorem blocks_balanced_shop : ∃ index steps code, indexed [shopFile] = .ok ([shopSchema], index) ∧
    Schema.verify index [shopSchema] = .ok () ∧
    writeFile ⟨{ choice := .unions }, index, shopSchema⟩ = .ok steps ∧ opened steps = 124 ∧ closed steps = 124 ∧
    fileCode ⟨{ choice := .unions }, index, shopSchema⟩ = .ok code ∧
    Writer.empty.run steps = Writer.empty.run (stepsOf code) ∧
    (∀ front, front <+: steps → (Writer.empty.run front).depth + closed front = opened front) ∧
    (Writer.empty.run steps).depth = 0 := by
  obtain ⟨index, indexes, counted⟩ := ok_of_bind opened_shopSchema
  have verified : Schema.verify index [shopSchema] = .ok () := by
    have both := verify_shopSchema
    rwa [indexes] at both
  have built : indexed [shopFile] = .ok ([shopSchema], index) := indexed_eq_ok.2 ⟨mapM_shopFile, indexes⟩
  have groupless : ∀ f ∈ [shopSchema], f.Groupless := by
    simpa only [List.forall_mem_singleton] using groupless_shopSchema
  have root : Unbroken "crate" := Code.unbroken_ofList (by decide)
  obtain ⟨steps, code, written, generated, same, counts, -, -, ends⟩ :=
    blocks_balanced built verified groupless { choice := .unions } (List.mem_singleton_self _)
  rw [Code.opened_writeFile written] at counted
  have opens : opened steps = 124 := Except.ok.inj counted
  have closes : closed steps = 124 := by
    have whole := counts steps List.prefix_rfl
    rwa [ends, Nat.zero_add, opens] at whole
  exact ⟨index, steps, code, built, verified, written, opens, closes, generated, same root, counts, ends⟩

end Compile

end Protogen
