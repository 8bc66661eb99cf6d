import Protogen.Proofs.Target.Members

set_option autoImplicit false

namespace Protogen.Target

variable {ctx : Context} {name symbol : String} {m : Schema.Message} {s : Struct}

/-- A field stands at its own position, and a choice at that of the first of its variants. -/
def Struct.StandsAt (s : Struct) (i : Nat) : Member → Prop
  | .field f => s.fields[i]? = some f ∧ f.union? = none
  | .union u => u ∈ s.unions ∧ u.members.head? = some i

structure Struct.Divided (s : Struct) : Prop where
  distinct : (s.unions.map (·.choice)).Nodup
  nonempty : ∀ u ∈ s.unions, u.members ≠ []
  increasing : ∀ u ∈ s.unions, u.members.Pairwise (· < ·)
  disjoint : s.unions.Pairwise fun u v => u.members.Disjoint v.members
  variants : ∀ u ∈ s.unions, ∀ i, i ∈ u.members ↔ ∃ f, s.fields[i]? = some f ∧ f.union? = some u.choice
  covered : ∀ i f, s.fields[i]? = some f → f.union?.isSome = true → ∃ u ∈ s.unions, i ∈ u.members

theorem increasing_zipIdx {α : Type} (as : List α) : (as.zipIdx.map (·.2)).Pairwise (· < ·) := by
  rw [List.zipIdx_map_snd]
  exact List.pairwise_lt_range'

theorem mem_variantsOf {fields : List Field} {choice i : Nat} :
    i ∈ variantsOf fields.zipIdx choice ↔ ∃ f, fields[i]? = some f ∧ f.union? = some choice := by
  simp only [variantsOf, List.mem_map, List.mem_filter, beq_iff_eq]
  constructor
  next =>
    rintro ⟨⟨f, i⟩, ⟨listed, union⟩, rfl⟩
    exact ⟨f, List.mk_mem_zipIdx_iff_getElem?.1 listed, union⟩
  next =>
    rintro ⟨f, here, union⟩
    exact ⟨(f, i), ⟨List.mk_mem_zipIdx_iff_getElem?.2 here, union⟩, rfl⟩

theorem Struct.divided_of_grouped {choices : List String} (grouped : Grouped symbol choices s.fields.zipIdx s.unions) :
    s.Divided := by
  have variants : ∀ u ∈ s.unions, ∀ i, i ∈ u.members ↔ ∃ f, s.fields[i]? = some f ∧ f.union? = some u.choice := by
    intro u member i
    rw [grouped.members u member, mem_variantsOf]
  refine ⟨grouped.distinct, ?_, ?_, ?_, variants, ?_⟩
  next =>
    intro u member none
    obtain ⟨⟨f, i⟩, listed, union⟩ := (grouped.begun u.choice).1 (List.mem_map_of_mem member)
    have inside := (variants u member i).2 ⟨f, List.mk_mem_zipIdx_iff_getElem?.1 listed, union⟩
    rw [none] at inside
    cases inside
  next =>
    intro u member
    rw [grouped.members u member]
    exact (increasing_zipIdx s.fields).sublist ((List.filter_sublist ..).map _)
  next =>
    refine (List.pairwise_map.1 grouped.distinct).imp_of_mem fun {u v} member member' differ i inside inside' => ?_
    -- A field is a variant of one choice only.
    obtain ⟨f, here, union⟩ := (variants u member i).1 inside
    obtain ⟨g, here', union'⟩ := (variants v member' i).1 inside'
    obtain rfl := Option.some.inj (here.symm.trans here')
    exact differ (Option.some.inj (union.symm.trans union'))
  next =>
    intro i f here variant
    obtain ⟨choice, union⟩ := Option.isSome_iff_exists.1 variant
    obtain ⟨u, member, rfl⟩ := List.mem_map.1
      ((grouped.begun choice).2 ⟨(f, i), List.mk_mem_zipIdx_iff_getElem?.2 here, union⟩)
    exact ⟨u, member, (variants u member i).2 ⟨f, here, union⟩⟩

theorem Struct.standsAt_of_memberAt {i : Nat} {f : Field} {member : Member} (here : s.fields[i]? = some f)
    (brings : s.memberAt i f = some member) : s.StandsAt i member := by
  cases variant : f.union? with
  | none =>
    rw [Struct.memberAt_of_plain (by rw [variant, Option.isNone_none])] at brings
    cases brings
    exact ⟨here, variant⟩
  | some choice =>
    obtain ⟨u, known, rfl, head⟩ := Struct.memberAt_of_variant (by rw [variant, Option.isSome_some]) brings
    exact ⟨known, head⟩

theorem forall₂_filterMap {α β : Type} (pick : α → Option β) (as : List α) :
    List.Forall₂ (fun a b => a ∈ as ∧ pick a = some b) (as.filter fun a => (pick a).isSome) (as.filterMap pick) := by
  induction as with
  | nil => exact .nil
  | cons a as ih =>
    have later := ih.imp fun _ _ both => (⟨List.mem_cons_of_mem a both.1, both.2⟩ : _ ∈ a :: as ∧ _)
    cases picked : pick a with
    | none =>
      rw [List.filterMap_cons_none picked, List.filter_cons_of_neg (by simp [picked])]
      exact later
    | some b =>
      rw [List.filterMap_cons_some picked, List.filter_cons_of_pos (by simp [picked])]
      exact .cons ⟨List.mem_cons_self .., picked⟩ later

theorem Struct.exists_places (s : Struct) :
    ∃ places : List Nat, places.Pairwise (· < ·) ∧ List.Forall₂ s.StandsAt places s.members := by
  let brings (p : Field × Nat) := s.memberAt p.2 p.1
  refine ⟨(s.fields.zipIdx.filter fun p => (brings p).isSome).map (·.2), ?_, ?_⟩
  next => exact (increasing_zipIdx s.fields).sublist ((List.filter_sublist ..).map _)
  next =>
    refine List.forall₂_map_left_iff.2 ((forall₂_filterMap brings s.fields.zipIdx).imp fun p member picked => ?_)
    exact Struct.standsAt_of_memberAt (List.mk_mem_zipIdx_iff_getElem?.1 picked.1) picked.2

-- The other fields of a choice that is no member

theorem Field.container_of_single {owner : String} {f : Schema.Field} {g : Field}
    (success : Field.ofSchema ctx owner f = .ok g) (properties : ctx.options.choice = .properties)
    (single : f.isRepeated = false) : g.container = .required ∨ g.container = .optional := by
  cases Field.mapped_ofSchema success with
  | map repeated => simp [single] at repeated
  | plain _ success =>
    obtain ⟨base, -, mapped⟩ := ok_of_bind success
    cases mapped
    have absent : containerOf ctx f base = singular f base := by
      cases chosen : f.choice <;> simp [containerOf, single, chosen, properties]
    simp only [absent, singular]
    split
    next => exact .inr rfl
    next => exact .inl rfl

/-- The fields are two of one choice. -/
def Field.Exclude (f g : Field) : Prop :=
  (∃ choice, f.schema.choice = some choice ∧ g.schema.choice = some choice) ∧
    f.schema.explicitPresence = false ∧ g.schema.explicitPresence = false ∧ f.schema.number ≠ g.schema.number

theorem Field.Exclude.symm {f g : Field} (exclude : f.Exclude g) : g.Exclude f := by
  obtain ⟨⟨choice, own, own'⟩, implicit, implicit', differ⟩ := exclude
  exact ⟨⟨choice, own', own⟩, implicit', implicit, differ.symm⟩

theorem Struct.mem_siblings {f g : Field} (singular : f.container = .required ∨ f.container = .optional) :
    g ∈ s.siblings f ↔ g ∈ s.fields ∧ f.Exclude g := by
  cases chosen : f.schema.choice with
  | none =>
    have none : s.siblings f = [] := by simp [siblings, chosen]
    simp [none, Field.Exclude, chosen]
  | some choice =>
    have filtered : s.siblings f = if f.schema.explicitPresence then [] else
        s.fields.filter fun g => g.schema.choice == f.schema.choice && g.schema.number != f.schema.number &&
          !g.schema.explicitPresence := by
      obtain container | container := singular <;> simp [siblings, chosen, container]
    rw [filtered]
    by_cases explicit : f.schema.explicitPresence = true
    next => simp [explicit, Field.Exclude]
    next =>
      rw [Bool.not_eq_true] at explicit
      simp only [explicit, Bool.false_eq_true, if_false, List.mem_filter, Bool.and_eq_true, beq_iff_eq, bne_iff_ne,
        Bool.not_eq_true', chosen, Field.Exclude, Option.some.injEq, exists_eq_left', true_and]
      exact and_congr_right fun _ => ⟨fun ⟨⟨same, differ⟩, implicit⟩ => ⟨same, implicit, differ.symm⟩,
        fun ⟨same, implicit, differ⟩ => ⟨⟨same, differ.symm⟩, implicit⟩⟩

theorem Struct.not_mem_siblings (f : Field) : f ∉ s.siblings f := by
  rw [siblings]
  split
  next => split <;> simp
  next => split <;> simp
  next => nofun

/-- An item has as members the fields that are no variants and its choices, each of them once, in the order of their
places. The variants are divided among the choices. Where choices are no members, the fields of one name each other and
no more, and none names itself. -/
theorem Struct.members_exact (mapped : Struct.ofMessage ctx name symbol m = .ok s) :
    List.Forall₂ (Field.Named ctx.options) m.fields s.fields ∧
    s.members.Perm ((s.fields.filter (·.union?.isNone)).map .field ++ s.unions.map .union) ∧
    (∃ places : List Nat, places.Pairwise (· < ·) ∧ List.Forall₂ s.StandsAt places s.members) ∧
    s.Divided ∧
    (∀ f, f ∉ s.siblings f) ∧
    (ctx.options.choice = .properties → ∀ f ∈ s.fields, f.schema.isRepeated = false →
      (∀ g, g ∈ s.siblings f ↔ g ∈ s.fields ∧ f.Exclude g) ∧
      ∀ g ∈ s.fields, g.schema.isRepeated = false → (g ∈ s.siblings f ↔ f ∈ s.siblings g)) := by
  have grouped := Struct.grouped_ofMessage mapped
  refine ⟨Struct.named_ofMessage mapped, Struct.perm_members grouped, s.exists_places,
    Struct.divided_of_grouped grouped, Struct.not_mem_siblings, ?_⟩
  intro properties f member single
  obtain ⟨fields, each, result⟩ := ok_of_bind mapped
  cases result
  have singular : ∀ h ∈ fields, h.schema.isRepeated = false → h.container = .required ∨ h.container = .optional := by
    intro h member single
    obtain ⟨declared, -, success⟩ := exists_of_forall₂ (forall₂_of_mapM each) h member
    rw [(Field.named_ofSchema success).schema] at single
    exact Field.container_of_single success properties single
  refine ⟨fun g => Struct.mem_siblings (singular f member single), fun g member' single' => ?_⟩
  rw [Struct.mem_siblings (singular f member single), Struct.mem_siblings (singular g member' single')]
  exact ⟨fun both => ⟨member, both.2.symm⟩, fun both => ⟨member', both.2.symm⟩⟩

def woven : Schema.Message :=
  ⟨"M", [
    ⟨"a", "a", 1, .string, .optional, none, some 0, false⟩,
    ⟨"b", "b", 2, .string, .optional, none, none, false⟩,
    ⟨"c", "c", 3, .string, .optional, none, some 1, false⟩,
    ⟨"d", "d", 4, .string, .optional, none, some 0, false⟩,
    ⟨"e", "e", 5, .string, .optional, none, some 1, false⟩], ["x", "y"], [], [], false⟩

def wovenSchema : Schema.File :=
  ⟨"a.proto", "p", .proto3, [], [woven], []⟩

theorem verify_wovenSchema :
    (Schema.Index.ofFiles [wovenSchema] >>= (Schema.verify · [wovenSchema])) = .ok () := by
  rw [Schema.Index.ofFiles]
  simp only [List.flatMap_cons, List.flatMap_nil, Schema.File.declarations_eq]
  rfl

theorem Struct.members_exact_woven : ∃ index s s', Schema.Index.ofFiles [wovenSchema] = .ok index ∧
    Schema.verify index [wovenSchema] = .ok () ∧
    (Struct.ofMessage ⟨{ choice := .unions }, index, wovenSchema⟩ ".p.M" "M" woven = .ok s ∧
      s.unions.map (·.members) = [[0, 3], [2, 4]] ∧ s.members.map Member.ident = ["x", "b", "y"] ∧ s.Divided ∧
      ∃ places : List Nat, places.Pairwise (· < ·) ∧ List.Forall₂ s.StandsAt places s.members) ∧
    Struct.ofMessage ⟨{}, index, wovenSchema⟩ ".p.M" "M" woven = .ok s' ∧
      s'.fields.map (fun f => (s'.siblings f).map (·.ident)) = [["d"], [], ["e"], ["a"], ["c"]] ∧
      ∃ a d, s'.fields[0]? = some a ∧ s'.fields[3]? = some d ∧ d ∈ s'.siblings a ∧ a ∈ s'.siblings d := by
  obtain ⟨index, built, verified⟩ := ok_of_bind verify_wovenSchema
  obtain ⟨s, mapped, members, idents⟩ :
      ∃ s, Struct.ofMessage ⟨{ choice := .unions }, index, wovenSchema⟩ ".p.M" "M" woven = .ok s ∧
        s.unions.map (·.members) = [[0, 3], [2, 4]] ∧ s.members.map Member.ident = ["x", "b", "y"] :=
    ⟨_, rfl, rfl, rfl⟩
  obtain ⟨s', mapped', siblings, a, d, first, last, single, single', sibling⟩ :
      ∃ s', Struct.ofMessage ⟨{}, index, wovenSchema⟩ ".p.M" "M" woven = .ok s' ∧
        s'.fields.map (fun f => (s'.siblings f).map (·.ident)) = [["d"], [], ["e"], ["a"], ["c"]] ∧
        ∃ a d, s'.fields[0]? = some a ∧ s'.fields[3]? = some d ∧ a.schema.isRepeated = false ∧
          d.schema.isRepeated = false ∧ d ∈ s'.siblings a :=
    ⟨_, rfl, rfl, _, _, rfl, rfl, rfl, rfl, List.mem_cons_self ..⟩
  obtain ⟨-, -, places, divided, -⟩ := Struct.members_exact mapped
  obtain ⟨-, -, -, -, -, exclude⟩ := Struct.members_exact mapped'
  have back := ((exclude rfl a (List.mem_of_getElem? first) single).2 d (List.mem_of_getElem? last) single').1 sibling
  exact ⟨index, s, s', built, verified, ⟨mapped, members, idents, divided, places⟩, mapped', siblings, a, d, first,
    last, sibling, back⟩

end Protogen.Target
