import Protogen.Proofs.Compile.Generation
import Protogen.Proofs.Target.Members

set_option autoImplicit false

namespace Protogen.Compile

open Schema (Declared Index)
open Target (Member Struct)

section

variable {index : Index} {m : Schema.Message} {ctx : Target.Context} {name symbol : String} {s : Struct}

theorem nodup_names_of_valid (valid : m.Valid index) : (m.fields.map (·.name)).Nodup :=
  List.pairwise_map.2 (valid.distinct.imp And.left)

theorem nodup_idents_iff (valid : m.Valid ctx.index) (mapped : Struct.ofMessage ctx name symbol m = .ok s) :
    (s.members.map Member.ident).Nodup ↔ (m.memberNames ctx.options).Pairwise fun a b => ¬Naming.Meet a b := by
  rw [(Struct.perm_idents mapped fun f member => (valid.fields f member).choice).nodup_iff, List.Nodup,
    List.pairwise_map]
  simp only [ne_eq, Naming.fieldIdent_eq_iff]

theorem nodup_memberNames_iff {options : Options} (valid : m.Valid index) : (m.memberNames options).Nodup ↔
    (m.choiceNames options).Nodup ∧
      ∀ f ∈ m.fields, f.isVariant options = false → f.name ∉ m.choiceNames options := by
  have fields : ((m.fields.filter fun f => !f.isVariant options).map (·.name)).Nodup :=
    (nodup_names_of_valid valid).sublist ((List.filter_sublist ..).map _)
  rw [Schema.Message.memberNames, List.nodup_append]
  constructor
  · rintro ⟨-, choices, apart⟩
    refine ⟨choices, fun f member plain also => ?_⟩
    have listed : f.name ∈ (m.fields.filter fun f => !f.isVariant options).map (·.name) :=
      List.mem_map_of_mem (List.mem_filter.2 ⟨member, by simp [plain]⟩)
    exact apart f.name listed f.name also rfl
  · rintro ⟨choices, apart⟩
    refine ⟨fields, choices, ?_⟩
    rw [List.forall_mem_map]
    rintro f listed _ also rfl
    obtain ⟨member, plain⟩ := List.mem_filter.1 listed
    exact apart f member (by simpa using plain) also

theorem nodup_jsonKeys_iff (valid : m.Valid index) (mapped : Struct.ofMessage ctx name symbol m = .ok s) :
    (s.fields.map (·.jsonKey)).Nodup ↔ (ctx.options.snakeToCamel = true → (m.fields.map (·.jsonName)).Nodup) := by
  rw [Struct.jsonKeys_ofMessage mapped]
  by_cases camel : ctx.options.snakeToCamel = true
  next => simp [camel]
  next => simp [camel, nodup_names_of_valid valid]

end

/-- Members of an item have distinct identifiers if and only if no two of their names meet; names in small letters
meet only where two choices, or a choice and a field, have one name. The variants of a choice are distinct, and no
keywords, if and only if the names of its fields in camel case are, and none is `Self`. The keys in JSON are distinct if
they are the names of the schema, and else if and only if its names for JSON are. -/
theorem distinct_names {options : Options} {files : List Schema.File} {index : Index} {f : Schema.File} {d : Declared}
    {m : Schema.Message} {s : Struct} (verified : Schema.verify index files = .ok ()) (member : f ∈ files)
    (own : d ∈ f.declarations) (declared : d.declaration = .message m)
    (mapped : Struct.ofMessage ⟨options, index, f⟩ d.fullName d.symbol m = .ok s) :
    ((s.members.map Member.ident).Nodup ↔ (m.memberNames options).Pairwise fun a b => ¬Naming.Meet a b) ∧
    ((∀ name ∈ m.memberNames options, Naming.Small name) →
      ((s.members.map Member.ident).Nodup ↔ (m.choiceNames options).Nodup ∧
        ∀ g ∈ m.fields, g.isVariant options = false → g.name ∉ m.choiceNames options)) ∧
    (∀ u ∈ s.unions,
      (((s.variants u).map (·.1)).Nodup ↔
        (m.fields.filter (·.joins u.choice)).Pairwise fun g h => Naming.pascal g.name ≠ Naming.pascal h.name) ∧
      ((∀ v ∈ s.variants u, v.1 ∉ Naming.keywords) ↔
        ∀ g ∈ m.fields, g.joins u.choice = true → Naming.pascal g.name ≠ "Self")) ∧
    ((s.fields.map (·.jsonKey)).Nodup ↔ (options.snakeToCamel = true → (m.fields.map (·.jsonName)).Nodup)) := by
  have valid : m.Valid index := by
    have checked := (Schema.verify_eq_ok.1 verified f member).declarations d own
    rwa [Declared.Valid, declared] at checked
  have idents := nodup_idents_iff valid mapped
  refine ⟨idents, fun small => ?_, fun u union => ?_, nodup_jsonKeys_iff valid mapped⟩
  · rw [idents, ← nodup_memberNames_iff valid, List.Nodup]
    refine List.Pairwise.iff_of_mem fun listed listed' => ?_
    rw [Naming.meet_iff_of_small (small _ listed) (small _ listed')]
  · have names := Struct.variantNames_ofMessage mapped union
    constructor
    · rw [names, List.Nodup, List.pairwise_map]
    · rw [← List.forall_mem_map (f := Prod.fst) (P := (· ∉ Naming.keywords)), names, List.forall_mem_map]
      simp only [List.mem_filter, and_imp, Naming.pascal_mem_keywords, ne_eq]

theorem distinct_names_shop : ∃ index s, Index.ofFiles [shopSchema] = .ok index ∧
    Schema.verify index [shopSchema] = .ok () ∧
    Struct.ofMessage ⟨{ choice := .unions }, index, shopSchema⟩ ".shop.Item" "Item" shopItem = .ok s ∧
    (s.members.map Member.ident).Nodup ∧
    (∀ u ∈ s.unions, ((s.variants u).map (·.1)).Nodup ∧ ∀ v ∈ s.variants u, v.1 ∉ Naming.keywords) ∧
    (s.fields.map (·.jsonKey)).Nodup := by
  obtain ⟨index, built, verified⟩ := ok_of_bind verify_shopSchema
  have valid := Schema.verify_eq_ok.1 verified
  have own : shopSchema ∈ [shopSchema] := List.mem_singleton_self _
  have groupless : ∀ f ∈ [shopSchema], f.Groupless := by
    simpa only [List.forall_mem_singleton] using groupless_shopSchema
  have listed := shopItem_declared
  have sound := Index.sound_of_verified built valid groupless
  obtain ⟨s, mapped, -⟩ :
      Gives (Struct.ofMessage ⟨{ choice := .unions }, index, shopSchema⟩ ".shop.Item" "Item" shopItem) _ :=
    Struct.gives_ofMessage sound ((valid _ own).declarations _ listed) ((groupless _ own _ listed).fields rfl)
  have ⟨idents, _, variants, keys⟩ := distinct_names verified own listed rfl mapped
  refine ⟨index, s, built, verified, mapped, idents.2 (by decide), fun u member => ?_, keys.2 fun _ => by decide⟩
  have ⟨distinct, plain⟩ := variants u member
  have apart : shopItem.fields.Pairwise fun g h => Naming.pascal g.name ≠ Naming.pascal h.name := by decide
  have others : ∀ g ∈ shopItem.fields, Naming.pascal g.name ≠ "Self" := by decide
  exact ⟨distinct.2 (apart.filter _), plain.2 fun g listed _ => others g listed⟩

def pairsFile : Descriptor.File where
  name := some "a.proto"
  package := some "p"
  messages := [
    { name := some "M"
      fields := [
        { name := some "foo_bar", number := some 1, kind := some 9 },
        { name := some "fooBar", number := some 2, kind := some 9 },
        { name := some "self", number := some 3, kind := some 9, choice := some 0 },
        { name := some "Self", number := some 4, kind := some 9, choice := some 0 }]
      choices := [some "kind"] }]

def pairs : Schema.Message :=
  ⟨"M", [
    ⟨"foo_bar", "fooBar", 1, .string, .optional, none, none, false⟩,
    ⟨"fooBar", "fooBar", 2, .string, .optional, none, none, false⟩,
    ⟨"self", "self", 3, .string, .optional, none, some 0, false⟩,
    ⟨"Self", "Self", 4, .string, .optional, none, some 0, false⟩], ["kind"], [], [], false⟩

def pairsSchema : Schema.File :=
  ⟨"a.proto", "p", .proto2, [], [pairs], []⟩

theorem names_meet : [pairsFile].mapM Schema.File.ofDescriptor = .ok [pairsSchema] ∧
    (Index.ofFiles [pairsSchema] >>= (Schema.verify · [pairsSchema])) = .ok () ∧
    ∃ s, (Index.ofFiles [pairsSchema] >>= fun index =>
        Struct.ofMessage ⟨{ choice := .unions }, index, pairsSchema⟩ ".p.M" "M" pairs) = .ok s ∧
      ¬(s.members.map Member.ident).Nodup ∧
      (∃ u ∈ s.unions, ¬((s.variants u).map (·.1)).Nodup ∧ ∃ v ∈ s.variants u, v.1 ∈ Naming.keywords) ∧
      ¬(s.fields.map (·.jsonKey)).Nodup := by
  refine ⟨rfl, ?_, ?_⟩
  · rw [Index.ofFiles]
    simp only [List.flatMap_cons, List.flatMap_nil, Schema.File.declarations_eq]
    rfl
  · rw [Index.ofFiles]
    simp only [List.flatMap_cons, List.flatMap_nil, Schema.File.declarations_eq]
    refine ⟨_, rfl, ?_, ?_, ?_⟩
    · decide
    · exact ⟨_, List.mem_singleton_self _, by decide, by decide⟩
    · decide

end Protogen.Compile
