import Protogen.Proofs.Compile.Generation
import Protogen.Proofs.Target.Choices

set_option autoImplicit false

namespace Protogen.Code

open Schema (Declared Index withPartials)
open Target (Context Enumeration Struct)

def Line.typeName? (l : Line) : Option String :=
  match l.pieces with
  | .text keyword :: .text name :: _ => if keyword = "pub struct " ∨ keyword = "pub enum " then some name else none
  | _ => none

def Block.typeName? : Block → Option String
  | .line l | .block l _ _ => l.typeName?
  | _ => none

def typeNames (code : List Block) : List String :=
  code.filterMap Block.typeName?

@[simp]
theorem typeNames_append (code code' : List Block) : typeNames (code ++ code') = typeNames code ++ typeNames code' :=
  List.filterMap_append

@[simp]
theorem typeNames_flatMap {α : Type} (f : α → List Block) (as : List α) :
    typeNames (as.flatMap f) = as.flatMap fun a => typeNames (f a) := by
  induction as with
  | nil => rfl
  | cons a as ih => rw [List.flatMap_cons, typeNames_append, ih, List.flatMap_cons]

@[simp]
theorem typeNames_cons_blank (code : List Block) : typeNames (.blank :: code) = typeNames code :=
  rfl

@[simp]
theorem typeNames_nameAttribute (symbol : String) : typeNames (nameAttribute symbol) = [] := by
  rw [nameAttribute]
  split <;> rfl

@[simp]
theorem typeNames_structWith (symbol : String) (members : List Block) :
    typeNames [structWith symbol members] = [symbol] := by
  rw [structWith]
  split <;> rfl

@[simp]
theorem typeNames_choiceItem (symbol : String) (variants : List Block) :
    typeNames (choiceItem symbol variants) = [symbol] :=
  rfl

theorem typeNames_structItem (s : Struct) : typeNames (structItem s) = s.symbol :: s.unions.map (·.symbol) := by
  simp only [structItem, typeNames_append, typeNames_nameAttribute, typeNames_structWith, typeNames_flatMap,
    typeNames_choiceItem, ← List.map_eq_flatMap]
  rfl

theorem typeNames_partialItem (s : Struct) :
    typeNames (partialItem s) = s.partialSymbol :: s.unions.map (·.partialSymbol) := by
  simp only [partialItem, typeNames_append, typeNames_nameAttribute, typeNames_structWith, typeNames_flatMap,
    typeNames_choiceItem, ← List.map_eq_flatMap]
  rfl

theorem typeNames_messageItems (options : Options) (s : Struct) :
    typeNames (messageItems options s) = withPartials options (s.symbol :: s.unions.map (·.symbol)) := by
  have blank : typeNames [.blank] = [] := rfl
  have defaultImpl : typeNames (defaultImpl s) = [] := rfl
  have messageImpl : typeNames (if options.outputEncode then .blank :: messageImpl s else []) = [] := by
    split <;> rfl
  have jsonImpl : typeNames (if options.outputJson then .blank :: jsonImpl s else []) = [] := by
    split <;> rfl
  -- Only the item itself and the one that leaves members out are defined; what is between implements traits.
  have partials : typeNames (if options.outputPartial then
      .blank :: partialItem s ++ [.blank] ++ fromPartialImpl s else []) =
      if options.outputPartial then (s.symbol :: s.unions.map (·.symbol)).map (· ++ "Partial") else [] := by
    have fromPartialImpl : typeNames (fromPartialImpl s) = [] := rfl
    split
    next =>
      rw [typeNames_append, typeNames_append, typeNames_cons_blank, typeNames_partialItem, blank, fromPartialImpl,
        List.map_cons, List.map_map, List.append_nil, List.append_nil]
      rfl
    next => rfl
  simp only [messageItems, typeNames_append, typeNames_structItem, blank, defaultImpl, messageImpl, jsonImpl,
    partials, List.append_nil, withPartials]

theorem typeNames_enumItem (options : Options) (e : Enumeration) : typeNames (enumItem options e) = [e.symbol] := by
  rw [enumItem]
  split
  next =>
    rw [variantEnum.eq_def, typeNames_append, typeNames_append, typeNames_nameAttribute]
    rfl
  next =>
    rw [numberEnum.eq_def, typeNames_append, typeNames_append, typeNames_nameAttribute]
    rfl

theorem perm_declaredItems {ctx : Context} {d : Declared} {items : List Block} (valid : d.Valid ctx.index)
    (success : declaredItems ctx d = .ok items) : (typeNames items).Perm (d.itemNames ctx.options) := by
  rw [declaredItems] at success
  rw [Schema.Declared.Valid] at valid
  rw [Declared.itemNames]
  cases declared : d.declaration with
  | enum e =>
    rw [declared] at success
    cases success
    rw [typeNames_enumItem]
    exact .refl _
  | message m =>
    rw [declared] at success valid
    obtain ⟨s, mapped, written⟩ := ok_of_bind success
    cases written
    have symbol : s.symbol = d.symbol := by
      obtain ⟨fields, -, written⟩ := ok_of_bind mapped
      cases written
      rfl
    rw [typeNames_messageItems, symbol]
    have inside := fun f member => (valid.fields f member).choice
    exact Schema.withPartials_perm ((Struct.perm_choiceTypes mapped inside).cons _)

theorem perm_typeNames {ctx : Context} {declared : List Declared} {items : List (List Block)}
    (valid : ∀ d ∈ declared, d.Valid ctx.index)
    (written : List.Forall₂ (fun d items => declaredItems ctx d = .ok items) declared items) :
    (typeNames items.flatten).Perm (declared.flatMap (·.itemNames ctx.options)) := by
  induction written with
  | nil => exact .nil
  | cons first rest ih =>
    obtain ⟨here, later⟩ := List.forall_mem_cons.1 valid
    rw [List.flatten_cons, typeNames_append, List.flatMap_cons]
    exact (perm_declaredItems here first).append (ih later)

variable {options : Options} {files : List Schema.File} {index : Index} {f : Schema.File}

/-- Where no type of a file is named with an underscore, the types of its code have distinct names if and only if
each level keeps the names of choices, and those of types that leave members out, apart from each other and from
the declared ones. -/
theorem nodup_typeNames (built : Index.ofFiles files = .ok index) (verified : Schema.verify index files = .ok ())
    (member : f ∈ files) (plain : ∀ d ∈ f.declarations, '_' ∉ d.declaration.name.toList) {items : List (List Block)}
    (success : f.declarations.mapM (declaredItems ⟨options, index, f⟩) = .ok items) :
    (typeNames items.flatten).Nodup ↔
      Schema.Apart options f.enums f.messages [] ∧ ∀ d ∈ f.declarations, d.Apart options := by
  have valid := (Schema.verify_eq_ok.1 verified f member).declarations
  rw [(perm_typeNames valid (forall₂_of_mapM success)).nodup_iff]
  exact f.nodup_itemNames options (Index.nodup_ofFiles built member) plain

open Compile (shopSchema verify_shopSchema groupless_shopSchema)

theorem nodup_typeNames_shop : ∃ index items, Index.ofFiles [shopSchema] = .ok index ∧
    Schema.verify index [shopSchema] = .ok () ∧
    shopSchema.declarations.mapM (declaredItems ⟨{ choice := .unions }, index, shopSchema⟩) = .ok items ∧
    (typeNames items.flatten).Nodup := by
  obtain ⟨index, built, verified⟩ := ok_of_bind verify_shopSchema
  have valid := Schema.verify_eq_ok.1 verified
  have groupless : ∀ f ∈ [shopSchema], f.Groupless := by
    simpa only [List.forall_mem_singleton] using groupless_shopSchema
  have own : shopSchema ∈ [shopSchema] := List.mem_singleton_self _
  have sound := Index.sound_of_verified built valid groupless
  obtain ⟨items, success, -⟩ : Gives (shopSchema.declarations.mapM
      (declaredItems ⟨{ choice := .unions }, index, shopSchema⟩)) (List.Forall₂ (fun _ => Allowed index) _) :=
    .mapM fun d member => gives_declaredItems sound ((valid _ own).declarations d member) (groupless _ own d member)
  have plain : ∀ d ∈ shopSchema.declarations, '_' ∉ d.declaration.name.toList := by
    rw [Schema.File.declarations_eq]
    decide
  have apart : ∀ d ∈ shopSchema.declarations, d.Apart { choice := .unions } := by
    rw [Schema.File.declarations_eq]
    decide
  exact ⟨index, items, built, verified, success,
    (nodup_typeNames built verified own plain success).2 ⟨by decide, apart⟩⟩

def clashFile : Descriptor.File where
  name := some "a.proto"
  package := some "p"
  grammar := none
  dependencies := []
  messages := [
    { name := some "A", fields := [], enums := [], choices := [], isMapEntry := none
      messages := [
        { name := some "B", fields := [], messages := [], enums := [], choices := [], isMapEntry := none }] },
    { name := some "A_B", fields := [], messages := [], enums := [], choices := [], isMapEntry := none }]
  enums := []
  services := []

def clashSchema : Schema.File where
  name := "a.proto"
  package := "p"
  grammar := .proto2
  enums := []
  messages := [⟨"A", [], [], [⟨"B", [], [], [], [], false⟩], [], false⟩, ⟨"A_B", [], [], [], [], false⟩]
  services := []

theorem typeNames_clash : [clashFile].mapM Schema.File.ofDescriptor = .ok [clashSchema] ∧
    ∃ index items, Index.ofFiles [clashSchema] = .ok index ∧ Schema.verify index [clashSchema] = .ok () ∧
      clashSchema.declarations.mapM (declaredItems ⟨{}, index, clashSchema⟩) = .ok items ∧
      ¬(typeNames items.flatten).Nodup := by
  refine ⟨rfl, ?_⟩
  have checked : (Index.ofFiles [clashSchema] >>= (Schema.verify · [clashSchema])) = .ok () := by
    rw [Index.ofFiles]
    simp only [List.flatMap_cons, List.flatMap_nil, Schema.File.declarations_eq]
    rfl
  obtain ⟨index, built, verified⟩ := ok_of_bind checked
  have success : clashSchema.declarations.mapM (declaredItems ⟨{}, index, clashSchema⟩) = .ok [
      messageItems {} ⟨".p.A", "A", [], []⟩, messageItems {} ⟨".p.A.B", "A_B", [], []⟩,
      messageItems {} ⟨".p.A_B", "A_B", [], []⟩] := by
    rw [Schema.File.declarations_eq]
    rfl
  refine ⟨index, _, built, verified, success, ?_⟩
  simp only [List.flatten_cons, List.flatten_nil, typeNames_append, typeNames_messageItems]
  decide

end Protogen.Code
