import Protogen.Proofs.Code.Records
import Protogen.Proofs.Compile.Generation

set_option autoImplicit false

namespace Protogen.Compile

open Code (Reads Writes WritesAll armHead armsOf decodeFn encodeFn gathered recordTag textsOf)
open Schema (Declared Index)
open Target (Field Member RecordForm Struct)

section

variable {ctx : Target.Context} {name symbol : String} {m : Schema.Message} {s : Struct}

theorem recordTag_of_formed {f : Schema.Field} {g : Field} {choices : Nat} (valid : f.Valid ctx.index choices)
    (formed : g.Formed ctx f) : recordTag g = f.tagNumber := by
  rw [recordTag, formed.schema]
  exact Schema.Field.toNat_tag valid.inRange formed.wireType

theorem perm_tags (valid : m.Valid ctx.index) (mapped : Struct.ofMessage ctx name symbol m = .ok s) :
    (gathered Code.Piece.tag? [encodeFn s]).Perm (m.fields.map (·.tagNumber)) := by
  have tags : s.fields.map recordTag = s.fields.map fun g => g.schema.tagNumber := by
    refine List.map_congr_left fun g member => ?_
    obtain ⟨f, listed, formed⟩ := exists_of_forall₂ (Struct.formed_ofMessage mapped) g member
    rw [recordTag_of_formed (valid.fields f listed) formed, formed.schema]
  have written := (Struct.perm_written mapped).map recordTag
  rw [← (Code.writesAll_encodeFn s).tags, tags] at written
  rwa [← Struct.schemas_ofMessage mapped, List.map_map]

theorem nodup_numbers (valid : m.Valid ctx.index) (mapped : Struct.ofMessage ctx name symbol m = .ok s) :
    (s.fields.map (·.schema.number)).Nodup := by
  have numbers : (m.fields.map (·.number)).Nodup := List.pairwise_map.2 (valid.distinct.imp And.right)
  rwa [← Struct.schemas_ofMessage mapped, List.map_map] at numbers

-- A verified message has an item, in which each of its fields is written and read in the form that it has.
theorem exists_code (ctx : Target.Context) (sound : ctx.index.Sound) (valid : m.Valid ctx.index)
    (single : ∀ g ∈ m.fields, g.kind ≠ .group) (name symbol : String) :
    ∃ s, Struct.ofMessage ctx name symbol m = .ok s ∧
      ∀ g ∈ m.fields, ∃ form lines body, RecordForm.Of ctx g form ∧
        lines <:+: textsOf [encodeFn s] ∧ Writes g.tagNumber form lines ∧
        (armsOf [decodeFn s]).filter (·.1 == armHead g.number) = [(armHead g.number, body)] ∧
        Reads form body := by
  obtain ⟨s, mapped, maps⟩ : Gives (Struct.ofMessage ctx name symbol m) _ :=
    Struct.gives_ofMessage sound valid single
  refine ⟨s, mapped, fun g listed => ?_⟩
  -- The field that `g` is mapped to has its form, and is written and read in it.
  obtain ⟨h, here, formed⟩ := exists_of_forall₂ (Struct.formed_ofMessage mapped).flip g listed
  have written := (Struct.perm_written mapped).mem_iff.2 here
  obtain ⟨lines, inside, records⟩ := (Code.writesAll_encodeFn s).lines h written
  rw [recordTag_of_formed (valid.fields g listed) formed] at records
  have arm := Code.filter_arms (nodup_numbers valid mapped) here
  rw [formed.schema] at arm
  exact ⟨h.form, lines, _, formed.form, inside, records, arm,
    Code.reads_decodeArm ((maps.complete valid).chosen h here)⟩

end

section

variable {descriptors : List Descriptor.File} {files : List Schema.File} {index : Index}

theorem sound_of_indexed (built : indexed descriptors = .ok (files, index))
    (verified : Schema.verify index files = .ok ()) (groupless : ∀ f ∈ files, f.Groupless) : index.Sound := by
  obtain ⟨fs, schemas, indexes⟩ := ok_of_bind built
  obtain ⟨i, indexes, same⟩ := ok_of_bind indexes
  cases same
  exact Index.sound_of_verified indexes (Schema.verify_eq_ok.1 verified) groupless

theorem valid_of_declared {f : Schema.File} {d : Declared} {m : Schema.Message}
    (verified : Schema.verify index files = .ok ()) (member : f ∈ files) (own : d ∈ f.declarations)
    (declared : d.declaration = .message m) : m.Valid index := by
  have checked := (Schema.verify_eq_ok.1 verified f member).declarations d own
  rwa [Declared.Valid, declared] at checked

end

/-- Where the options ask for it, a function that encodes a message and one that decodes it stand in its items. In them
every field has one tag and one arm, of its number and of the form that its values have on the wire: by one method, that
of a writer where they are written and of a reader where they are read, or as messages of the type that the field has. -/
theorem records_agree {descriptors : List Descriptor.File} (options : Options) {files : List Schema.File}
    {index : Index} (built : indexed descriptors = .ok (files, index)) (verified : Schema.verify index files = .ok ())
    (groupless : ∀ f ∈ files, f.Groupless) {f : Schema.File} (member : f ∈ files) {d : Declared}
    (own : d ∈ f.declarations) {m : Schema.Message} (declared : d.declaration = .message m) :
    ∃ s, Struct.ofMessage ⟨options, index, f⟩ d.fullName d.symbol m = .ok s ∧
      Code.declaredItems ⟨options, index, f⟩ d = .ok (Code.messageItems options s) ∧
      (options.outputEncode = true → Code.block ("impl ::protoweave::Message for " ++ s.symbol)
        [encodeFn s, .blank, decodeFn s] ∈ Code.messageItems options s) ∧
      (gathered Code.Piece.tag? [encodeFn s]).Perm (m.fields.map (·.tagNumber)) ∧
      ∀ g ∈ m.fields, ∃ form lines body, RecordForm.Of ⟨options, index, f⟩ g form ∧
        lines <:+: textsOf [encodeFn s] ∧ Writes g.tagNumber form lines ∧
        (armsOf [decodeFn s]).filter (·.1 == armHead g.number) = [(armHead g.number, body)] ∧
        Reads form body := by
  have valid := valid_of_declared verified member own declared
  obtain ⟨s, mapped, fields⟩ := exists_code ⟨options, index, f⟩ (sound_of_indexed built verified groupless) valid
    ((groupless f member d own).fields declared) d.fullName d.symbol
  have items : Code.declaredItems ⟨options, index, f⟩ d = .ok (Code.messageItems options s) := by
    rw [Code.declaredItems, declared]
    exact bind_eq_ok.2 ⟨s, mapped, rfl⟩
  have placed (encoded : options.outputEncode = true) : Code.block ("impl ::protoweave::Message for " ++ s.symbol)
      [encodeFn s, .blank, decodeFn s] ∈ Code.messageItems options s := by
    simp [Code.messageItems, encoded, Code.messageImpl]
  exact ⟨s, mapped, items, placed, perm_tags valid mapped, fields⟩

-- The item of the shop has a text and a number, of which one may be chosen, and a map.
theorem records_agree_shop : ∃ index s, indexed [shopFile] = .ok ([shopSchema], index) ∧
    Schema.verify index [shopSchema] = .ok () ∧
    Struct.ofMessage ⟨{ choice := .unions }, index, shopSchema⟩ ".shop.Item" "Item" shopItem = .ok s ∧
    Code.block ("impl ::protoweave::Message for " ++ s.symbol) [encodeFn s, .blank, decodeFn s] ∈
      Code.messageItems { choice := .unions } s ∧
    (gathered Code.Piece.tag? [encodeFn s]).Perm [10, 16, 26] ∧
    ∀ g ∈ shopItem.fields, ∃ form lines body, RecordForm.Of ⟨{ choice := .unions }, index, shopSchema⟩ g form ∧
      lines <:+: textsOf [encodeFn s] ∧ Writes g.tagNumber form lines ∧
      (armsOf [decodeFn s]).filter (·.1 == armHead g.number) = [(armHead g.number, body)] ∧ Reads form body := by
  obtain ⟨index, indexes, verified⟩ := ok_of_bind verify_shopSchema
  have built : indexed [shopFile] = .ok ([shopSchema], index) := by
    rw [indexed, mapM_shopFile]
    exact bind_eq_ok.2 ⟨_, rfl, bind_eq_ok.2 ⟨_, indexes, rfl⟩⟩
  have groupless : ∀ f ∈ [shopSchema], f.Groupless := by
    simpa only [List.forall_mem_singleton] using groupless_shopSchema
  obtain ⟨s, mapped, -, placed, tags, fields⟩ :=
    records_agree { choice := .unions } built verified groupless (List.mem_singleton_self _) shopItem_declared rfl
  exact ⟨index, s, built, verified, mapped, placed rfl, tags, fields⟩

end Protogen.Compile
