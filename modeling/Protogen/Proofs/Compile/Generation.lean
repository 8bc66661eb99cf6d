import Protogen.Proofs.Code.Calls
import Protogen.Proofs.Compile.FileText
import Protogen.Proofs.Target.Services

set_option autoImplicit false

namespace Protogen

open Schema (Index)
open Target (Context Service Struct)

namespace Code

variable {ctx : Context}

theorem gives_declaredItems (sound : ctx.index.Sound) {d : Schema.Declared} (valid : d.Valid ctx.index)
    (groupless : d.Groupless) : Gives (declaredItems ctx d) (Allowed ctx.index) := by
  rw [declaredItems]
  rw [Schema.Declared.Valid] at valid
  split
  next e _ => exact .ok (allowed_enumItem ctx.options _)
  next m declared =>
    rw [declared] at valid
    refine (Struct.gives_ofMessage sound valid (groupless.fields declared)).bind fun s maps => .ok ?_
    refine allowed_messageItems (fun f member => ?_) ctx.options
    obtain ⟨f', -, mapped⟩ := exists_of_forall₂ maps.fields f member
    exact mapped.indexed

theorem gives_fileItems (sound : ctx.index.Sound) (valid : ctx.file.Valid ctx.index)
    (groupless : ctx.file.Groupless) : Gives (fileItems ctx) (Allowed ctx.index) := by
  have declared : Gives (ctx.file.declarations.mapM (declaredItems ctx))
      (List.Forall₂ (fun _ items => Allowed ctx.index items) ctx.file.declarations) :=
    .mapM fun d member => gives_declaredItems sound (valid.declarations d member) (groupless d member)
  refine declared.bind fun declared allowed => ?_
  have services : Gives (ctx.file.services.mapM fun s => do
        return serviceItems ctx.options (← Service.ofSchema ctx s))
      (List.Forall₂ (fun _ items => Allowed ctx.index items) ctx.file.services) :=
    .mapM fun s member => (Target.Service.gives_ofSchema sound (valid.services s member)).bind fun service _ =>
      .ok (allowed_serviceItems ctx.options service)
  refine services.bind fun services allowed' => .ok ?_
  simp only [allowed_flatMap, allowed_cons, List.forall_mem_append]
  constructor
  · intro items member
    obtain ⟨d, -, allowed⟩ := exists_of_forall₂ allowed items member
    exact ⟨Block.allowed_blank, allowed⟩
  · intro items member
    obtain ⟨s, -, allowed⟩ := exists_of_forall₂ allowed' items member
    exact ⟨Block.allowed_blank, allowed⟩

theorem gives_helperItems {items : List Block} (allowed : Allowed ctx.index items) :
    Gives (helperItems ctx items) fun _ => True := by
  have path : Gives (timestampPath ctx (Helper.needed ctx.options.long (helpersOf items))) fun _ => True := by
    rw [timestampPath]
    split
    next names =>
      -- Some helper names the timestamp, so an item called it or one that needs it, and the timestamp is indexed.
      obtain ⟨r, member, names⟩ := List.any_eq_true.1 names
      obtain ⟨h, called, callee⟩ := Helper.mem_needed_iff.1 member
      obtain ⟨e, found⟩ := allowed.helpers h called (Helper.needsTimestamp_of_closure callee names)
      exact (Target.gives_path found "").imp fun _ found => ⟨found.1, trivial⟩
    next => exact .ok trivial
  exact path.bind fun _ _ => .ok trivial

theorem gives_fileCode (sound : ctx.index.Sound) (valid : ctx.file.Valid ctx.index)
    (groupless : ctx.file.Groupless) : Gives (fileCode ctx) fun _ => True :=
  (gives_fileItems sound valid groupless).bind fun _ allowed =>
    (gives_helperItems allowed).bind fun _ _ => .ok trivial

end Code

namespace Compile

theorem exists_fileCode {descriptors : List Descriptor.File} {files : List Schema.File} {index : Index}
    (built : indexed descriptors = .ok (files, index)) (verified : Schema.verify index files = .ok ())
    (groupless : ∀ f ∈ files, f.Groupless) (options : Options) {file : Schema.File} (member : file ∈ files) :
    ∃ code, Code.fileCode ⟨options, index, file⟩ = .ok code := by
  have valid := Schema.verify_eq_ok.1 verified
  have sound := Index.sound_of_verified (indexed_eq_ok.1 built).2 valid groupless
  exact (Code.gives_fileCode sound (valid file member) (groupless file member)).imp fun _ => And.left

/-- Where options are read, a schema is indexed and passes the checks, and no field is a group, there is code for
whatever files are asked for. Neither does the code of an item look up in vain what the mapping has left to it, nor
a client the method behind an accessor. -/
theorem run_of_verified {descriptors : List Descriptor.File} {parameter : String} {options : Options}
    {files : List Schema.File} {index : Index} (parsed : Options.parse parameter = .ok options)
    (built : indexed descriptors = .ok (files, index)) (verified : Schema.verify index files = .ok ())
    (groupless : ∀ f ∈ files, f.Groupless) (requested : List String) :
    (∃ outputs, run descriptors requested parameter = .ok outputs) ∧ ∀ f ∈ files,
      (∀ d ∈ f.declarations, ∀ m, d.declaration = .message m →
        ∃ s, Struct.ofMessage ⟨options, index, f⟩ d.fullName d.symbol m = .ok s ∧ s.Complete m) ∧
      ∀ service ∈ f.services, ∃ s, Service.ofSchema ⟨options, index, f⟩ service = .ok s ∧
        ∀ b ∈ s.batches, ∃ m ∈ s.methods, m.name = b.method.name := by
  have valid := Schema.verify_eq_ok.1 verified
  have sound := Index.sound_of_verified (indexed_eq_ok.1 built).2 valid groupless
  constructor
  -- The stages of a run come one after the other, and the first three are what is given.
  · have outputs : Gives (run descriptors requested parameter) fun _ => True := by
      rw [run_eq]
      refine Gives.bind (P := (options = ·)) ⟨options, parsed, rfl⟩ ?_
      rintro _ rfl
      refine Gives.bind (P := ((files, index) = ·)) ⟨_, built, rfl⟩ ?_
      rintro _ rfl
      refine Gives.bind (P := fun _ => True) ⟨(), verified, trivial⟩ fun _ _ => ?_
      refine Gives.bind (Gives.mapM (R := fun _ _ => True) fun f member => ?_) fun outputs _ => ?_
      · have listed := List.mem_of_mem_filter member
        exact (Code.gives_fileCode sound (valid f listed) (groupless f listed)).bind fun _ _ => .ok trivial
      · split <;> exact .ok trivial
    obtain ⟨outputs, written, -⟩ := outputs
    exact ⟨outputs, written⟩
  -- What the mapping of an item or a service finds does not depend on which files are asked for.
  · intro f member
    constructor
    · intro d own m declared
      have checked := (valid f member).declarations d own
      rw [Schema.Declared.Valid, declared] at checked
      obtain ⟨s, mapped, maps⟩ : Gives (Struct.ofMessage ⟨options, index, f⟩ d.fullName d.symbol m) _ :=
        Struct.gives_ofMessage sound checked ((groupless f member d own).fields declared)
      exact ⟨s, mapped, maps.complete checked⟩
    · intro service own
      exact Service.gives_ofSchema sound ((valid f member).services service own)

def shopFile : Descriptor.File where
  name := some "shop.proto"
  package := some "shop"
  grammar := some "proto3"
  dependencies := []
  enums := [{ name := some "Color", values := [{ name := some "RED", number := some 0 }] }]
  messages := [
    { name := some "Item"
      fields := [
        { name := some "id", number := some 1, kind := some 9, choice := some 0 },
        { name := some "color", number := some 2, kind := some 14, typeName := some ".shop.Color",
          choice := some 0 },
        { name := some "stock", number := some 3, kind := some 11, label := some 3,
          typeName := some ".shop.Item.StockEntry" }]
      messages := [
        { name := some "StockEntry"
          fields := [
            { name := some "key", number := some 1, kind := some 9 },
            { name := some "value", number := some 2, kind := some 11, typeName := some ".shop.Item" }]
          messages := [], enums := [], choices := [], isMapEntry := some true }]
      enums := [], choices := [some "label"], isMapEntry := none },
    { name := some "Ids", fields := [{ name := some "ids", number := some 1, kind := some 9, label := some 3 }]
      messages := [], enums := [], choices := [], isMapEntry := none },
    { name := some "Items"
      fields := [
        { name := some "items", number := some 1, kind := some 11, label := some 3, typeName := some ".shop.Item" }]
      messages := [], enums := [], choices := [], isMapEntry := none }]
  services := [{ name := some "Shop", methods := [
    { name := some "BatchGetItems", input := some ".shop.Ids", output := some ".shop.Items" }] }]

def shopSchema : Schema.File where
  name := "shop.proto"
  package := "shop"
  grammar := .proto3
  enums := [⟨"Color", [⟨"RED", 0⟩]⟩]
  messages := [
    ⟨"Item", [
      ⟨"id", "id", 1, .string, .optional, none, some 0, false⟩,
      ⟨"color", "color", 2, .enum, .optional, some ".shop.Color", some 0, false⟩,
      ⟨"stock", "stock", 3, .message, .repeated, some ".shop.Item.StockEntry", none, false⟩], ["label"], [
      ⟨"StockEntry", [
        ⟨"key", "key", 1, .string, .optional, none, none, false⟩,
        ⟨"value", "value", 2, .message, .optional, some ".shop.Item", none, false⟩],
        [], [], [], true⟩], [], false⟩,
    ⟨"Ids", [⟨"ids", "ids", 1, .string, .repeated, none, none, false⟩], [], [], [], false⟩,
    ⟨"Items", [
      ⟨"items", "items", 1, .message, .repeated, some ".shop.Item", none, false⟩], [], [], [], false⟩]
  services := [⟨"Shop", [⟨"BatchGetItems", ".shop.Ids", ".shop.Items", false, false⟩]⟩]

def shopItem : Schema.Message :=
  ⟨"Item", [
    ⟨"id", "id", 1, .string, .optional, none, some 0, false⟩,
    ⟨"color", "color", 2, .enum, .optional, some ".shop.Color", some 0, false⟩,
    ⟨"stock", "stock", 3, .message, .repeated, some ".shop.Item.StockEntry", none, false⟩], ["label"], [
    ⟨"StockEntry", [
      ⟨"key", "key", 1, .string, .optional, none, none, false⟩,
      ⟨"value", "value", 2, .message, .optional, some ".shop.Item", none, false⟩],
      [], [], [], true⟩], [], false⟩

theorem shopItem_declared : ⟨".shop.Item", "Item", .message shopItem⟩ ∈ shopSchema.declarations := by
  rw [Schema.File.declarations_eq]
  exact List.mem_cons_of_mem _ (List.mem_cons_self ..)

set_option maxRecDepth 3000 in
theorem mapM_shopFile : [shopFile].mapM Schema.File.ofDescriptor = .ok [shopSchema] := by rfl

set_option maxRecDepth 3000 in
theorem verify_shopSchema : (Index.ofFiles [shopSchema] >>= (Schema.verify · [shopSchema])) = .ok () := by
  rw [Index.ofFiles]
  simp only [List.flatMap_cons, List.flatMap_nil, Schema.File.declarations_eq]
  rfl

theorem groupless_shopSchema : shopSchema.Groupless := by
  rw [Schema.File.Groupless, Schema.File.declarations_eq]
  decide

theorem run_of_verified_shop :
    (∃ index, indexed [shopFile] = .ok ([shopSchema], index) ∧ Schema.verify index [shopSchema] = .ok ()) ∧
      ∃ outputs, run [shopFile] ["shop.proto"] "oneof=unions" = .ok outputs := by
  obtain ⟨index, indexes, verified⟩ := ok_of_bind verify_shopSchema
  have parsed : Options.parse "oneof=unions" = .ok { choice := .unions } := rfl
  have built : indexed [shopFile] = .ok ([shopSchema], index) := indexed_eq_ok.2 ⟨mapM_shopFile, indexes⟩
  have groupless : ∀ f ∈ [shopSchema], f.Groupless := by
    simpa only [List.forall_mem_singleton] using groupless_shopSchema
  exact ⟨⟨index, built, verified⟩, (run_of_verified parsed built verified groupless ["shop.proto"]).1⟩

end Compile

end Protogen
