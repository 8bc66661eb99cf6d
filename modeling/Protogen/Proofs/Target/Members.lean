import Protogen.Proofs.Naming.Identifier
import Protogen.Proofs.Target.Choices

set_option autoImplicit false

namespace Protogen

namespace Schema

-- Whether the field is a variant of some choice, where choices are one member.
def Field.isVariant (options : Options) (f : Field) : Bool :=
  options.choice == .unions && !f.isRepeated && !f.explicitPresence && f.choice.isSome

def Message.memberNames (options : Options) (m : Message) : List String :=
  (m.fields.filter fun f => !f.isVariant options).map (·.name) ++ m.choiceNames options

theorem Field.isVariant_iff {options : Options} {f : Field} :
    f.isVariant options = true ↔ ∃ choice, options.choice = .unions ∧ f.joins choice = true := by
  cases chosen : f.choice <;> simp [isVariant, joins, chosen, and_assoc]

end Schema

namespace Target

def Member.ident : Member → String
  | .field f => f.ident
  | .union u => u.ident

variable {ctx : Context} {owner : String} {f : Schema.Field} {g : Field}

/-- What the field is called in the code. -/
structure Field.Named (options : Options) (f : Schema.Field) (g : Field) : Prop where
  schema : g.schema = f
  ident : g.ident = Naming.fieldIdent f.name
  jsonKey : g.jsonKey = if options.snakeToCamel then f.jsonName else f.name
  variant : ∀ {choice variant}, g.container = .union choice variant → variant = Naming.pascal f.name
  joins : ∀ {choice}, g.union? = some choice ↔ options.choice = .unions ∧ f.joins choice = true

theorem variant_containerOf {base : Base} {choice : Nat} {variant : String}
    (union : containerOf ctx f base = .union choice variant) : variant = Naming.pascal f.name := by
  rw [containerOf] at union
  split at union
  next => cases union
  next =>
    split at union
    next =>
      split at union
      next =>
        cases union
        rfl
      next => exact absurd union (singular_ne_union base variant)
    next => exact absurd union (singular_ne_union base variant)

theorem Field.named_plain (success : Field.plain ctx owner f = .ok g) : g.Named ctx.options f := by
  have joins {choice : Nat} : g.union? = some choice ↔ ctx.options.choice = .unions ∧ f.joins choice = true :=
    Field.union?_plain success
  obtain ⟨base, -, mapped⟩ := ok_of_bind success
  cases mapped
  exact ⟨rfl, rfl, rfl, variant_containerOf, joins⟩

theorem Field.named_ofSchema (success : Field.ofSchema ctx owner f = .ok g) : g.Named ctx.options f := by
  have joins {choice : Nat} : g.union? = some choice ↔ ctx.options.choice = .unions ∧ f.joins choice = true :=
    Field.union?_ofSchema success
  cases Field.mapped_ofSchema success with
  | plain _ success => exact Field.named_plain success
  | map _ _ _ _ _ _ _ _ result =>
    subst result
    refine ⟨rfl, rfl, rfl, fun union => ?_, joins⟩
    cases union

theorem map_filter_of_forall₂ {α β γ : Type} {R : α → β → Prop} {as : List α} {bs : List β} {p : α → Bool}
    {q : β → Bool} {f : α → γ} {g : β → γ} (related : List.Forall₂ R as bs) (picked : ∀ {a b}, R a b → p a = q b)
    (same : ∀ {a b}, R a b → q b = true → g b = f a) : (bs.filter q).map g = (as.filter p).map f := by
  induction related with
  | nil => rfl
  | cons first rest ih =>
    rw [List.filter_cons, List.filter_cons, picked first]
    split
    next kept => rw [List.map_cons, List.map_cons, same first kept, ih]
    next => exact ih

section Members

variable {symbol : String} {choices : List String} {s : Struct}

-- The first field of a choice brings the choice with it.
theorem Struct.memberAt_union (grouped : Grouped symbol choices s.fields.zipIdx s.unions) {u : Union}
    (member : u ∈ s.unions) :
    ∃ p ∈ s.fields.zipIdx, p.1.union? = some u.choice ∧ s.memberAt p.2 p.1 = some (.union u) := by
  have begun : variantsOf s.fields.zipIdx u.choice ≠ [] := by
    obtain ⟨p, listed, union⟩ := (grouped.begun u.choice).1 (List.mem_map_of_mem member)
    have position : p.2 ∈ variantsOf s.fields.zipIdx u.choice :=
      List.mem_map_of_mem (List.mem_filter.2 ⟨listed, beq_iff_eq.2 union⟩)
    exact List.ne_nil_of_mem position
  obtain ⟨i, others, first⟩ := List.exists_cons_of_ne_nil begun
  have position : i ∈ variantsOf s.fields.zipIdx u.choice := first ▸ List.mem_cons_self ..
  obtain ⟨p, listed, rfl⟩ := List.mem_map.1 position
  obtain ⟨listed, union⟩ := List.mem_filter.1 listed
  have own : s.union? u.choice = some u := by
    have known : (s.unions.find? (·.choice == u.choice)).isSome = true :=
      List.find?_isSome.2 ⟨u, member, by simp⟩
    obtain ⟨u', found⟩ := Option.isSome_iff_exists.1 known
    have same : u'.choice = u.choice := by simpa using List.find?_some found
    rw [union?, found, List.inj_on_of_nodup_map grouped.distinct (List.mem_of_find?_eq_some found) member same]
  have head : u.members.head? = some p.2 := by rw [grouped.members u member, first, List.head?_cons]
  obtain ⟨variant, container⟩ := Field.union?_eq_some.1 (eq_of_beq union)
  refine ⟨p, listed, eq_of_beq union, ?_⟩
  simp only [memberAt, container, own, head, if_true]

theorem Struct.memberAt_of_variant {i : Nat} {f : Field} {member : Member} (variant : f.union?.isSome = true)
    (brings : s.memberAt i f = some member) : ∃ u ∈ s.unions, member = .union u ∧ u.members.head? = some i := by
  obtain ⟨choice, union⟩ := Option.isSome_iff_exists.1 variant
  obtain ⟨variant, container⟩ := Field.union?_eq_some.1 union
  rw [memberAt, container] at brings
  cases found : s.union? choice with
  | none => simp [found] at brings
  | some u =>
    simp only [found, Option.ite_none_right_eq_some, Option.some.injEq] at brings
    exact ⟨u, List.mem_of_find?_eq_some found, brings.2.symm, brings.1⟩

theorem Struct.memberAt_of_plain {f : Field} (plain : f.union?.isNone = true) (i : Nat) :
    s.memberAt i f = some (.field f) := by
  rw [memberAt]
  split
  next choice variant container => simp [Field.union?, container] at plain
  next => rfl

-- The members are the fields that are no variants, and each choice once.
theorem Struct.perm_members (grouped : Grouped symbol choices s.fields.zipIdx s.unions) :
    s.members.Perm ((s.fields.filter (·.union?.isNone)).map .field ++ s.unions.map .union) := by
  let member (p : Field × Nat) := s.memberAt p.2 p.1
  have plain : (s.fields.zipIdx.filter (·.1.union?.isNone)).filterMap member =
      (s.fields.filter (·.union?.isNone)).map .field := by
    have each : ∀ p ∈ s.fields.zipIdx.filter (·.1.union?.isNone), member p = some (.field p.1) :=
      fun p listed => memberAt_of_plain (List.mem_filter.1 listed).2 p.2
    have fields : s.fields.filter (·.union?.isNone) = (s.fields.zipIdx.filter (·.1.union?.isNone)).map (·.1) := by
      have own := List.filter_map (f := Prod.fst) (p := fun f : Field => f.union?.isNone) (l := s.fields.zipIdx)
      rwa [List.zipIdx_map_fst] at own
    rw [List.filterMap_congr each, fields, List.map_map, ← List.filterMap_eq_map]
    rfl
  have variants : ((s.fields.zipIdx.filter fun p => !p.1.union?.isNone).filterMap member).Perm
      (s.unions.map .union) := by
    -- A choice comes only at the position that its members begin with, and so once.
    have apart : (s.fields.zipIdx.filter fun p => !p.1.union?.isNone).Pairwise fun p q => p.2 ≠ q.2 :=
      (List.pairwise_map.1 (List.nodup_zipIdx_map_snd s.fields)).filter _
    have once : ((s.fields.zipIdx.filter fun p => !p.1.union?.isNone).filterMap member).Nodup := by
      refine List.pairwise_filterMap.2 (apart.imp_of_mem fun {p q} listed listed' differ m brings m' brings' same => ?_)
      obtain ⟨u, -, rfl, head⟩ := memberAt_of_variant (by simpa using (List.mem_filter.1 listed).2) brings
      obtain ⟨u', -, rfl, head'⟩ := memberAt_of_variant (by simpa using (List.mem_filter.1 listed').2) brings'
      cases same
      exact differ (Option.some.inj (head.symm.trans head'))
    have distinct : (s.unions.map Member.union).Nodup :=
      (List.nodup_map_iff fun _ _ => Member.union.inj).2 grouped.distinct.of_map
    refine (List.perm_ext_iff_of_nodup once distinct).2 fun m => ?_
    rw [List.mem_filterMap, List.mem_map]
    constructor
    · rintro ⟨p, listed, brings⟩
      obtain ⟨u, known, rfl, -⟩ := memberAt_of_variant (by simpa using (List.mem_filter.1 listed).2) brings
      exact ⟨u, known, rfl⟩
    · rintro ⟨u, known, rfl⟩
      obtain ⟨p, listed, union, brings⟩ := memberAt_union grouped known
      exact ⟨p, List.mem_filter.2 ⟨listed, by simp [union]⟩, brings⟩
  have split := (List.filter_append_perm (·.1.union?.isNone) s.fields.zipIdx).symm.filterMap member
  rw [List.filterMap_append, plain] at split
  exact split.trans (variants.append_left _)

end Members

variable {name symbol : String} {m : Schema.Message} {s : Struct}

theorem Struct.named_ofMessage (success : Struct.ofMessage ctx name symbol m = .ok s) :
    List.Forall₂ (Field.Named ctx.options) m.fields s.fields := by
  obtain ⟨fields, each, mapped⟩ := ok_of_bind success
  cases mapped
  exact (forall₂_of_mapM each).imp fun _ _ => Field.named_ofSchema

theorem Struct.perm_idents (success : Struct.ofMessage ctx name symbol m = .ok s)
    (inside : ∀ f ∈ m.fields, ∀ i, f.choice = some i → i < m.choices.length) :
    (s.members.map Member.ident).Perm ((m.memberNames ctx.options).map Naming.fieldIdent) := by
  have grouped := Struct.grouped_ofMessage success
  have plain : ((s.fields.filter (·.union?.isNone)).map Member.field).map Member.ident =
      ((m.fields.filter fun f => !f.isVariant ctx.options).map (·.name)).map Naming.fieldIdent := by
    rw [List.map_map, List.map_map]
    refine map_filter_of_forall₂ (Struct.named_ofMessage success) (fun {f g} named => ?_) fun named _ => named.ident
    have same : f.isVariant ctx.options = g.union?.isSome := by
      rw [Bool.eq_iff_iff, Schema.Field.isVariant_iff, Option.isSome_iff_exists]
      exact exists_congr fun _ => named.joins.symm
    rw [same, Option.not_isSome]
  have unions : (s.unions.map Member.union).map Member.ident =
      (s.unions.map fun u => m.choices.getD u.choice "").map Naming.fieldIdent := by
    rw [List.map_map, List.map_map]
    exact List.map_congr_left grouped.idents
  rw [Schema.Message.memberNames, List.map_append]
  refine ((Struct.perm_members grouped).map Member.ident).trans ?_
  rw [List.map_append, plain, unions]
  exact ((Struct.perm_choiceNames success inside).map _).append_left _

theorem Struct.variants_ofMessage (success : Struct.ofMessage ctx name symbol m = .ok s) {u : Union}
    (member : u ∈ s.unions) : s.variants u =
      (s.fields.filter (·.union? == some u.choice)).map fun g => (Naming.pascal g.schema.name, g) := by
  have fields : s.fields.filter (·.union? == some u.choice) =
      (s.fields.zipIdx.filter (·.1.union? == some u.choice)).map (·.1) := by
    have own := List.filter_map (f := Prod.fst) (p := fun f : Field => f.union? == some u.choice) (l := s.fields.zipIdx)
    rwa [List.zipIdx_map_fst] at own
  rw [variants, (Struct.grouped_ofMessage success).members u member, variantsOf, List.filterMap_map, fields,
    List.map_map, ← List.filterMap_eq_map]
  refine List.filterMap_congr fun p listed => ?_
  -- A position leads back to its field, which is a variant of the choice.
  obtain ⟨listed, union⟩ := List.mem_filter.1 listed
  have here := List.mk_mem_zipIdx_iff_getElem?.1 listed
  obtain ⟨variant, container⟩ := Field.union?_eq_some.1 (eq_of_beq union)
  obtain ⟨f, -, named⟩ := exists_of_forall₂ (Struct.named_ofMessage success) p.1 (List.mem_of_getElem? here)
  simp only [Function.comp_apply, here, container, named.variant container, named.schema]

theorem Struct.variantNames_ofMessage (success : Struct.ofMessage ctx name symbol m = .ok s) {u : Union}
    (member : u ∈ s.unions) :
    (s.variants u).map (·.1) = (m.fields.filter (·.joins u.choice)).map (Naming.pascal ·.name) := by
  have unions := ((Struct.mem_choices success).1 (List.mem_map_of_mem member)).1
  rw [Struct.variants_ofMessage success member, List.map_map]
  refine map_filter_of_forall₂ (Struct.named_ofMessage success) (fun {f g} named => ?_) fun {f g} named _ => ?_
  · rw [Bool.eq_iff_iff, beq_iff_eq, named.joins]
    exact (and_iff_right unions).symm
  · rw [Function.comp_apply, named.schema]

theorem Struct.jsonKeys_ofMessage (success : Struct.ofMessage ctx name symbol m = .ok s) :
    s.fields.map (·.jsonKey) = m.fields.map fun f => if ctx.options.snakeToCamel then f.jsonName else f.name := by
  have kept := map_filter_of_forall₂ (p := fun _ => true) (q := fun _ => true) (Struct.named_ofMessage success)
    (fun _ => rfl) fun named _ => named.jsonKey
  simpa using kept

theorem Struct.schemas_ofMessage (success : Struct.ofMessage ctx name symbol m = .ok s) :
    s.fields.map (·.schema) = m.fields := by
  have kept := map_filter_of_forall₂ (p := fun _ => true) (q := fun _ => true) (f := id) (Struct.named_ofMessage success)
    (fun _ => rfl) fun named _ => named.schema
  simpa using kept

theorem perm_by_key {α κ : Type} [DecidableEq κ] (key : α → Option κ) {keys : List κ} (distinct : keys.Nodup)
    {as : List α} (known : ∀ a ∈ as, ∀ k, key a = some k → k ∈ keys) :
    as.Perm (as.filter (fun a => (key a).isNone) ++ keys.flatMap fun k => as.filter fun a => key a == some k) := by
  induction keys generalizing as with
  | nil =>
    have none : as.filter (fun a => (key a).isNone) = as :=
      List.filter_eq_self.2 fun a member => Option.isNone_iff_eq_none.2 <| Option.eq_none_iff_forall_ne_some.2
        fun k own => by simpa using known a member k own
    simp [none]
  | cons k keys ih =>
    obtain ⟨fresh, distinct⟩ := List.nodup_cons.1 distinct
    have elsewhere : ∀ a ∈ as.filter fun a => !(key a == some k), ∀ k', key a = some k' → k' ∈ keys := by
      intro a member k' own
      obtain ⟨member, other⟩ := List.mem_filter.1 member
      have listed := known a member k' own
      have differ : k' ≠ k := by
        rintro rfl
        simp [own] at other
      exact (List.mem_cons.1 listed).resolve_left differ
    have others := ih distinct elsewhere
    have plain : (as.filter fun a => !(key a == some k)).filter (fun a => (key a).isNone) =
        as.filter fun a => (key a).isNone := by
      rw [List.filter_filter]
      refine List.filter_congr fun a _ => ?_
      cases key a <;> simp
    have rest : (keys.flatMap fun k' => (as.filter fun a => !(key a == some k)).filter fun a => key a == some k') =
        keys.flatMap fun k' => as.filter fun a => key a == some k' := by
      refine List.flatMap_congr fun k' member => ?_
      have differ : k' ≠ k := fun same => fresh (same ▸ member)
      rw [List.filter_filter]
      refine List.filter_congr fun a _ => ?_
      by_cases own : key a = some k' <;> simp [own, differ]
    rw [plain, rest] at others
    have first := (List.filter_append_perm (fun a => key a == some k) as).symm
    exact first.trans ((others.append_left _).trans (List.perm_append_comm_assoc ..))

def Struct.written (s : Struct) : Member → List Field
  | .field f => [f]
  | .union u => (s.variants u).map (·.2)

-- The members of an item write each of its fields once.
theorem Struct.perm_written (success : Struct.ofMessage ctx name symbol m = .ok s) :
    (s.members.flatMap s.written).Perm s.fields := by
  have grouped := Struct.grouped_ofMessage success
  have known : ∀ f ∈ s.fields, ∀ choice, f.union? = some choice → choice ∈ s.unions.map (·.choice) := by
    intro f member choice union
    obtain ⟨i, here⟩ := List.mem_iff_getElem?.1 member
    exact (grouped.begun choice).2 ⟨(f, i), List.mk_mem_zipIdx_iff_getElem?.2 here, union⟩
  have unions : s.unions.flatMap (fun u => s.written (.union u)) =
      (s.unions.map (·.choice)).flatMap fun choice => s.fields.filter (·.union? == some choice) := by
    rw [List.flatMap_map]
    refine List.flatMap_congr fun u member => ?_
    rw [written, Struct.variants_ofMessage success member, List.map_map]
    exact List.map_id _
  have fields (fs : List Field) : (fs.map Member.field).flatMap s.written = fs := by
    rw [List.flatMap_map]
    exact List.flatMap_singleton' fs
  have sorted := (Struct.perm_members grouped).flatMap_right s.written
  rw [List.flatMap_append, fields, List.flatMap_map, unions] at sorted
  exact sorted.trans (perm_by_key Field.union? grouped.distinct known).symm

end Target

end Protogen
