import Mathlib.Data.List.Induction
import Protogen.Proofs.Schema.Verified
import Protogen.Target.Service

set_option autoImplicit false

namespace Protogen

open Schema (Index Kind)

namespace Schema

def Field.IsMap (index : Index) (f : Field) : Prop :=
  f.isRepeated = true ∧ f.kind = .message ∧
    ∃ target entry, f.typeName = some target ∧ index.HasMessage target entry ∧ entry.isMapEntry = true

/-- What is indexed has been checked, and no field is a group. -/
structure Index.Sound (index : Index) : Prop where
  message : ∀ {name m}, index.HasMessage name m → m.Valid index ∧ ∀ f ∈ m.fields, f.kind ≠ .group
  enum : ∀ {name e}, index.HasEnum name e → e.values ≠ []

def Declared.Groupless (d : Declared) : Prop :=
  match d.declaration with
  | .enum _ => True
  | .message m => ∀ f ∈ m.fields, f.kind ≠ .group

instance (d : Declared) : Decidable d.Groupless :=
  match h : d.declaration with
  | .enum _ => .isTrue (by simp only [Declared.Groupless, h])
  | .message m => decidable_of_iff (∀ f ∈ m.fields, f.kind ≠ .group) (by simp only [Declared.Groupless, h])

theorem Declared.Groupless.fields {d : Declared} (groupless : d.Groupless) {m : Message}
    (declared : d.declaration = .message m) : ∀ f ∈ m.fields, f.kind ≠ .group := by
  rwa [Declared.Groupless, declared] at groupless

def File.Groupless (f : File) : Prop :=
  ∀ d ∈ f.declarations, d.Groupless

variable {files : List File} {index : Index}

-- Every entry of an index is a declaration of some file, and has been checked with it.
theorem Index.sound_of_verified (built : Index.ofFiles files = .ok index) (valid : ∀ f ∈ files, f.Valid index)
    (groupless : ∀ f ∈ files, f.Groupless) : index.Sound := by
  constructor
  · intro name m indexed
    refine ⟨indexed.valid built valid, ?_⟩
    obtain ⟨e, found, declared⟩ := indexed
    obtain ⟨f, member, d, own, -, rfl⟩ := (Index.find?_ofFiles built).1 found
    exact (groupless f member d own).fields declared
  · rintro name e ⟨entry, found, declared⟩
    obtain ⟨f, member, d, own, -, rfl⟩ := (Index.find?_ofFiles built).1 found
    have checked := (valid f member).declarations d own
    rw [Declared.Valid, show d.declaration = .enum e from declared] at checked
    exact checked

end Schema

namespace Target

variable {ctx : Context} {owner context : String} {f : Schema.Field}

-- A type that names the timestamp message stands for an indexed one.
def Base.Indexed (index : Index) : Base → Prop
  | .child (.timestamp _ _ _) => ∃ e, index.find? timestampName = some e
  | _ => True

theorem Base.Indexed.unboxed {index : Index} {b : Base} (indexed : b.Indexed index) : b.unboxed.Indexed index := by
  match b with
  | .child (.timestamp _ _ _) => exact indexed
  | .child (.message _ _ _) | .child (.wrapper _ _) | .primitive _ => trivial

theorem gives_path {name : String} {e : Schema.Entry} (found : ctx.index.find? name = some e) (ending : String) :
    Gives (ctx.path name ending) fun _ => True := by
  obtain ⟨path, success⟩ := Index.exists_path found ctx.file.name ctx.options.moduleRoot ending
  exact ⟨path, success, trivial⟩

theorem gives_requireTypeName {target : String} (named : f.typeName = some target) :
    Gives (requireTypeName f context) (target = ·) := by
  rw [requireTypeName, named]
  exact .ok rfl

theorem Base.gives_ofField (sound : ctx.index.Sound) {choices : Nat} (valid : f.Valid ctx.index choices)
    (single : f.kind ≠ .group) : Gives (Base.ofField ctx owner f context) (Base.Indexed ctx.index) := by
  rw [Base.ofField]
  split
  next group => exact absurd group single
  next kind =>
    obtain ⟨target, m, named, e, found, declared⟩ := valid.message (.inl kind)
    refine (gives_requireTypeName named).bind ?_
    rintro _ rfl
    split
    next k wrapped => exact (gives_path found "").bind fun path _ => .ok trivial
    next =>
      split
      next timestamp =>
        rw [timestamp] at found ⊢
        exact (gives_path found "").bind fun path _ => (gives_path found "Partial").bind fun partialPath _ =>
          .ok ⟨e, found⟩
      next =>
        refine Gives.bind (P := (m = ·)) ⟨m, Index.message_eq_ok.2 ⟨e, found, declared⟩, rfl⟩ fun _ _ => ?_
        exact (gives_path found "").bind fun path _ => (gives_path found "Partial").bind fun partialPath _ =>
          .ok trivial
  next kind =>
    obtain ⟨target, e, named, entry, found, declared⟩ := valid.enum kind
    refine (gives_requireTypeName named).bind ?_
    rintro _ rfl
    refine Gives.bind (P := (e = ·)) ⟨e, Index.enum_eq_ok.2 ⟨entry, found, declared⟩, rfl⟩ ?_
    rintro _ rfl
    split
    next missing =>
      -- An enumeration with values has a first one at least.
      have values := sound.enum ⟨entry, found, declared⟩
      rw [Schema.Enum.default?] at missing
      have first : e.values.head? ≠ none := by simpa using values
      cases zero : e.values.find? (·.number == 0) <;> simp_all
    next value _ => exact (gives_path found "").bind fun path _ => .ok trivial
  next => exact .ok trivial

structure Field.Maps (index : Index) (f : Schema.Field) (field : Field) : Prop where
  schema : field.schema = f
  indexed : field.base.Indexed index
  choice : ∀ {choice variant}, field.container = .union choice variant → f.choice = some choice

theorem choice_containerOf {base : Base} {choice : Nat} {variant : String}
    (union : containerOf ctx f base = .union choice variant) : f.choice = some choice := by
  rw [containerOf] at union
  split at union
  next => cases union
  next =>
    have plain : singular f base ≠ .union choice variant := by
      rw [singular]
      split <;> nofun
    split at union
    next i chosen =>
      split at union
      next =>
        cases union
        exact chosen
      next => exact absurd union plain
    next => exact absurd union plain

theorem containerOf_ne_map (base : Base) (shape : MapShape) : containerOf ctx f base ≠ .map shape := by
  rw [containerOf]
  grind [singular]

theorem Field.gives_plain (sound : ctx.index.Sound) {choices : Nat} (valid : f.Valid ctx.index choices)
    (single : f.kind ≠ .group) : Gives (Field.plain ctx owner f) (Field.Maps ctx.index f) :=
  (Base.gives_ofField sound valid single).bind fun _ indexed => .ok ⟨rfl, indexed, choice_containerOf⟩

theorem Field.ofSchemaTo_of_single (once : f.isRepeated = false) (depth : Nat) :
    Field.ofSchemaTo ctx depth owner f = Field.plain ctx owner f := by
  cases depth <;> simp only [ofSchemaTo, ofSchemaWith, once, Bool.false_and, Bool.false_eq_true, if_false]

-- The value of a map entry is not repeated, so it is no map and a depth of one is enough.
theorem Field.gives_ofSchema (sound : ctx.index.Sound) {choices : Nat} (valid : f.Valid ctx.index choices)
    (single : f.kind ≠ .group) : Gives (Field.ofSchema ctx owner f) (Field.Maps ctx.index f) := by
  rw [Field.ofSchema, Field.ofSchemaTo, Field.ofSchemaWith]
  split
  next isMessages =>
    rw [Bool.and_eq_true, beq_iff_eq] at isMessages
    obtain ⟨target, m, named, e, found, declared⟩ := valid.message (.inl isMessages.2)
    have entry := sound.message ⟨e, found, declared⟩
    refine (gives_requireTypeName named).bind ?_
    rintro _ rfl
    refine Gives.bind (P := (m = ·)) ⟨m, Index.message_eq_ok.2 ⟨e, found, declared⟩, rfl⟩ ?_
    rintro _ rfl
    split
    next => exact gives_plain sound valid single
    next isEntry =>
      obtain ⟨key, value, fields, -, -, -, -, once⟩ := entry.1.entry (by simpa using isEntry)
      -- Both fields belong to a message that is indexed, so they have been checked as fields of it.
      have ⟨validKey, singleKey⟩ : key.Valid ctx.index m.choices.length ∧ key.kind ≠ .group :=
        ⟨entry.1.fields key (by simp [fields]), entry.2 key (by simp [fields])⟩
      have ⟨validValue, singleValue⟩ : value.Valid ctx.index m.choices.length ∧ value.kind ≠ .group :=
        ⟨entry.1.fields value (by simp [fields]), entry.2 value (by simp [fields])⟩
      have inner : Gives (Field.ofSchemaTo ctx ctx.index.size target value) (Field.Maps ctx.index value) := by
        rw [ofSchemaTo_of_single once]
        exact gives_plain sound validValue singleValue
      simp only [fields]
      refine (Base.gives_ofField sound validKey singleKey).bind fun k _ => inner.bind fun v maps => ?_
      exact (gives_path found "").bind fun path _ => .ok ⟨rfl, maps.indexed.unboxed, nofun⟩
  next => exact gives_plain sound valid single

theorem requireTypeName_eq_ok {name : String} : requireTypeName f context = .ok name ↔ f.typeName = some name := by
  cases named : f.typeName <;> simp [requireTypeName, named]

/-- How a field is mapped: by itself, or by the entries that its messages are. -/
inductive Field.Mapped (ctx : Context) (owner : String) (f : Schema.Field) (g : Field) : Prop where
  | plain (other : ¬f.IsMap ctx.index) (success : Field.plain ctx owner f = .ok g)
  | map {target path : String} {entry : Schema.Message} {keyField valueField : Schema.Field} {key : Base}
    {value : Field} (repeated : f.isRepeated = true) (kind : f.kind = .message) (named : f.typeName = some target)
    (indexed : ctx.index.HasMessage target entry) (isEntry : entry.isMapEntry = true)
    (fields : entry.fields = [keyField, valueField])
    (keyed : Base.ofField ctx target keyField (owner ++ "." ++ f.name) = .ok key)
    (located : ctx.path target "" = .ok path)
    (result : g = {
      schema := f
      ident := Naming.fieldIdent f.name
      jsonKey := if ctx.options.snakeToCamel then f.jsonName else f.name
      base := value.base.unboxed
      container := .map ⟨key, path, value.container == .optional, value.base.isBoxed⟩ })

theorem Field.mapped_ofSchema {g : Field} (success : Field.ofSchema ctx owner f = .ok g) :
    Field.Mapped ctx owner f g := by
  rw [Field.ofSchema, Field.ofSchemaTo, Field.ofSchemaWith] at success
  split at success
  next isMessages =>
    rw [Bool.and_eq_true, beq_iff_eq] at isMessages
    obtain ⟨target, required, success⟩ := ok_of_bind success
    obtain ⟨entry, found, success⟩ := ok_of_bind success
    have named := requireTypeName_eq_ok.1 required
    have indexed := Index.message_eq_ok.1 found
    split at success
    next noEntry =>
      refine .plain ?_ success
      rintro ⟨-, -, target', entry', named', indexed', isEntry⟩
      cases named.symm.trans named'
      cases indexed.unique indexed'
      simp [isEntry] at noEntry
    next isEntry =>
      split at success
      next fields _ =>
        obtain ⟨key, keyed, success⟩ := ok_of_bind success
        obtain ⟨value, -, success⟩ := ok_of_bind success
        obtain ⟨path, located, mapped⟩ := ok_of_bind success
        cases mapped
        exact .map isMessages.1 isMessages.2 named indexed (by simpa using isEntry) fields keyed located rfl
      next => cases success
  next notMessages =>
    refine .plain ?_ success
    rintro ⟨repeated, kind, -⟩
    simp [repeated, kind] at notMessages

-- Choices that are one member each.

def Field.union? (f : Field) : Option Nat :=
  match f.container with
  | .union choice _ => some choice
  | _ => none

def variantsOf (fields : List (Field × Nat)) (choice : Nat) : List Nat :=
  (fields.filter fun p => p.1.union? == some choice).map (·.2)

-- The choices that some fields are variants of, each with the positions of these.
structure Grouped (symbol : String) (choices : List String) (fields : List (Field × Nat)) (unions : List Union) :
    Prop where
  distinct : (unions.map (·.choice)).Nodup
  begun : ∀ choice, choice ∈ unions.map (·.choice) ↔ ∃ p ∈ fields, p.1.union? = some choice
  members : ∀ u ∈ unions, u.members = variantsOf fields u.choice
  symbols : ∀ u ∈ unions, u.symbol = symbol ++ "_" ++ Naming.pascal (choices.getD u.choice "")
  idents : ∀ u ∈ unions, u.ident = Naming.fieldIdent (choices.getD u.choice "")

def addField (symbol : String) (choices : List String) (unions : List Union) (p : Field × Nat) : List Union :=
  match p.1.container with
  | .union choice _ => addToUnion symbol choices unions choice p.2
  | _ => unions

theorem variantsOf_snoc (fields : List (Field × Nat)) (p : Field × Nat) (choice : Nat) :
    variantsOf (fields ++ [p]) choice =
      variantsOf fields choice ++ if p.1.union? = some choice then [p.2] else [] := by
  by_cases variant : p.1.union? = some choice <;> simp [variantsOf, variant]

section Grouping

variable {symbol : String} {choices : List String} {fields : List (Field × Nat)} {unions : List Union}

theorem Grouped.addField (grouped : Grouped symbol choices fields unions) (p : Field × Nat) :
    Grouped symbol choices (fields ++ [p]) (addField symbol choices unions p) := by
  rw [Target.addField]
  split
  next choice variant union =>
    have own : p.1.union? = some choice := by rw [Field.union?, union]
    rw [addToUnion]
    split
    next taken =>
      -- The choice has been begun: its member gets one more position, and the others stay as they are.
      have kept : ((unions.map fun u =>
          if u.choice = choice then { u with members := u.members ++ [p.2] } else u).map (·.choice)) =
          unions.map (·.choice) := by
        rw [List.map_map]
        refine List.map_congr_left fun u _ => ?_
        by_cases same : u.choice = choice <;> simp [same]
      have begun : choice ∈ unions.map (·.choice) := by simpa using taken
      refine ⟨by rw [kept]; exact grouped.distinct, fun c => ?_, ?_, ?_, ?_⟩
      · rw [kept, grouped.begun]
        by_cases same : choice = c
        · subst same
          exact iff_of_true ((grouped.begun choice).1 begun) ⟨p, by simp, own⟩
        · simp [own, same]
      · simp only [List.forall_mem_map]
        intro u member
        by_cases same : u.choice = choice <;>
          simp [same, variantsOf_snoc, own, grouped.members u member, eq_comm (a := choice)]
      · simp only [List.forall_mem_map]
        intro u member
        by_cases same : u.choice = choice <;> simp [same, grouped.symbols u member]
      · simp only [List.forall_mem_map]
        intro u member
        by_cases same : u.choice = choice <;> simp [same, grouped.idents u member]
    next free =>
      have fresh : choice ∉ unions.map (·.choice) := by simpa using free
      have none : variantsOf fields choice = [] := by
        have unused : ∀ q ∈ fields, q.1.union? ≠ some choice := fun q member used =>
          fresh ((grouped.begun choice).2 ⟨q, member, used⟩)
        simpa [variantsOf] using unused
      refine ⟨?_, fun c => ?_, fun u member => ?_, fun u member => ?_, fun u member => ?_⟩
      · rw [List.map_append]
        exact List.nodup_append.2 ⟨grouped.distinct, by simp, by simpa using fresh⟩
      · rw [List.map_append, List.mem_append, grouped.begun]
        simp [own, or_and_right, exists_or, eq_comm (a := c)]
      · rcases List.mem_append.1 member with member | member
        · have other : u.choice ≠ choice := fun same => fresh (same ▸ List.mem_map_of_mem member)
          simp [variantsOf_snoc, own, grouped.members u member, other.symm]
        · rw [List.mem_singleton.1 member]
          simp [variantsOf_snoc, own, none]
      · rcases List.mem_append.1 member with member | member
        · exact grouped.symbols u member
        · rw [List.mem_singleton.1 member]
      · rcases List.mem_append.1 member with member | member
        · exact grouped.idents u member
        · rw [List.mem_singleton.1 member]
  next other =>
    have own : p.1.union? = none := by
      rw [Field.union?]
      split
      next choice variant union => exact absurd union (other choice variant)
      next => rfl
    refine ⟨grouped.distinct, fun c => ?_, fun u member => ?_, grouped.symbols, grouped.idents⟩
    · rw [grouped.begun]
      simp [own]
    · rw [variantsOf_snoc, own, grouped.members u member]
      simp

theorem grouped_foldl (fields : List (Field × Nat)) :
    Grouped symbol choices fields (fields.foldl (addField symbol choices) []) := by
  induction fields using List.reverseRecOn with
  | nil => exact ⟨.nil, by simp, nofun, nofun, nofun⟩
  | append_singleton fields p ih =>
    rw [List.foldl_append]
    exact ih.addField p

end Grouping

structure Struct.Maps (index : Index) (symbol : String) (m : Schema.Message) (s : Struct) : Prop where
  named : s.symbol = symbol
  fields : List.Forall₂ (Field.Maps index) m.fields s.fields
  unions : Grouped symbol m.choices s.fields.zipIdx s.unions

/-- Nothing that the code of an item looks up is missing: the name of a choice, the fields of its variants, and
the choice of a variant. -/
structure Struct.Complete (m : Schema.Message) (s : Struct) : Prop where
  named : ∀ u ∈ s.unions, u.choice < m.choices.length
  variants : ∀ u ∈ s.unions, ∀ i ∈ u.members,
    ∃ f variant, s.fields[i]? = some f ∧ f.container = .union u.choice variant
  chosen : ∀ f ∈ s.fields, ∀ choice variant, f.container = .union choice variant → ∃ u, s.union? choice = some u

theorem Field.union?_eq_some {f : Field} {choice : Nat} :
    f.union? = some choice ↔ ∃ variant, f.container = .union choice variant := by
  obtain ⟨_, _, _, _, container⟩ := f
  cases container <;> simp [union?]

variable {symbol : String} {m : Schema.Message}

theorem Struct.gives_ofMessage (sound : ctx.index.Sound) {name : String} (valid : m.Valid ctx.index)
    (single : ∀ f ∈ m.fields, f.kind ≠ .group) :
    Gives (Struct.ofMessage ctx name symbol m) (Struct.Maps ctx.index symbol m) := by
  have fields : Gives (m.fields.mapM (Field.ofSchema ctx name)) (List.Forall₂ (Field.Maps ctx.index) m.fields) :=
    .mapM fun f member => Field.gives_ofSchema sound (valid.fields f member) (single f member)
  refine fields.bind fun fs maps => .ok ⟨rfl, maps, ?_⟩
  exact grouped_foldl fs.zipIdx

theorem Grouped.chosen {s : Struct} {choices : List String} (grouped : Grouped symbol choices s.fields.zipIdx s.unions)
    {f : Field} (member : f ∈ s.fields) {choice : Nat} {variant : String} (union : f.container = .union choice variant) :
    ∃ u, s.union? choice = some u := by
  obtain ⟨i, here, rfl⟩ := List.getElem_of_mem member
  have listed : (s.fields[i], i) ∈ s.fields.zipIdx :=
    List.mk_mem_zipIdx_iff_getElem?.2 (List.getElem?_eq_getElem here)
  have begun : choice ∈ s.unions.map (·.choice) :=
    (grouped.begun choice).2 ⟨_, listed, Field.union?_eq_some.2 ⟨variant, union⟩⟩
  obtain ⟨u, member, rfl⟩ := List.mem_map.1 begun
  have found : (s.union? u.choice).isSome = true := by
    rw [Struct.union?, List.find?_isSome]
    exact ⟨u, member, by simp⟩
  exact Option.isSome_iff_exists.1 found

-- However a message is mapped, the choice of each variant can be looked up.
theorem Struct.chosen_ofMessage {s : Struct} {name : String} (mapped : Struct.ofMessage ctx name symbol m = .ok s) :
    ∀ f ∈ s.fields, ∀ choice variant, f.container = .union choice variant → ∃ u, s.union? choice = some u := by
  obtain ⟨fs, -, mapped⟩ := ok_of_bind mapped
  cases mapped
  have grouped : Grouped symbol m.choices fs.zipIdx _ := grouped_foldl fs.zipIdx
  exact fun f member choice variant union => Grouped.chosen (s := ⟨name, symbol, fs, _⟩) grouped member union

theorem Struct.Maps.complete {s : Struct} {index : Index} (maps : s.Maps index symbol m) (valid : m.Valid index) :
    s.Complete m := by
  constructor
  case named =>
    intro u member
    obtain ⟨⟨f, i⟩, listed, union⟩ := (maps.unions.begun u.choice).1 (List.mem_map_of_mem member)
    obtain ⟨variant, union⟩ := Field.union?_eq_some.1 union
    have here := List.mem_of_getElem? (List.mk_mem_zipIdx_iff_getElem?.1 listed)
    -- The choice of a union is that of a field of the schema, whose index has been checked.
    obtain ⟨f', declared, mapped⟩ := exists_of_forall₂ maps.fields f here
    exact (valid.fields f' declared).choice u.choice (mapped.choice union)
  case variants =>
    intro u member i position
    rw [maps.unions.members u member, variantsOf] at position
    obtain ⟨⟨f, i⟩, listed, rfl⟩ := List.mem_map.1 position
    obtain ⟨listed, union⟩ := List.mem_filter.1 listed
    obtain ⟨variant, union⟩ := Field.union?_eq_some.1 (eq_of_beq union)
    exact ⟨f, variant, List.mk_mem_zipIdx_iff_getElem?.1 listed, union⟩
  case chosen =>
    exact fun f member choice variant union => maps.unions.chosen member union

end Target

end Protogen
