import Mathlib.Data.List.Nodup
import Protogen.Compile.Options
import Protogen.Proofs.Naming.Pascal
import Protogen.Schema.Declaration

set_option autoImplicit false

namespace Protogen.Schema

variable {options : Options}

def Declaration.name : Declaration → String
  | .enum e => e.name
  | .message m => m.name

-- Whether the field is a variant of a choice, where choices are one member.
def Field.joins (f : Field) (choice : Nat) : Bool :=
  !f.isRepeated && !f.explicitPresence && f.choice == some choice

def Message.choiceTypes (options : Options) (m : Message) : List String :=
  if options.choice = .unions then
    (m.choices.zipIdx.filter fun c => m.fields.any (·.joins c.2)).map fun c => Naming.pascal c.1
  else []

def withPartials (options : Options) (names : List String) : List String :=
  names ++ if options.outputPartial then names.map (· ++ "Partial") else []

def Declared.itemNames (options : Options) (d : Declared) : List String :=
  match d.declaration with
  | .enum _ => [d.symbol]
  | .message m => withPartials options (d.symbol :: (m.choiceTypes options).map (d.symbol ++ "_" ++ ·))

-- The names that the items of a level have there besides the declared ones.
def derivedNames (options : Options) (messages : List Message) (choiceTypes : List String) : List String :=
  choiceTypes ++
    if options.outputPartial then (messages.map (·.name) ++ choiceTypes).map (· ++ "Partial") else []

/-- In a level, derived names meet neither each other nor a declared one. -/
@[mk_iff]
structure Apart (options : Options) (enums : List Enum) (messages : List Message) (choiceTypes : List String) :
    Prop where
  derived : (derivedNames options messages choiceTypes).Nodup
  declared : ∀ name ∈ enums.map (·.name) ++ messages.map (·.name), name ∉ derivedNames options messages choiceTypes

instance (enums : List Enum) (messages : List Message) (choiceTypes : List String) :
    Decidable (Apart options enums messages choiceTypes) :=
  decidable_of_iff' _ (apart_iff ..)

-- The level inside a message keeps its names apart.
def Declared.Apart (options : Options) (d : Declared) : Prop :=
  match d.declaration with
  | .enum _ => True
  | .message m => Schema.Apart options m.enums m.messages (m.choiceTypes options)

instance (d : Declared) : Decidable (d.Apart options) :=
  match h : d.declaration with
  | .enum _ => .isTrue (by simp only [Declared.Apart, h])
  | .message m =>
    decidable_of_iff (Schema.Apart options m.enums m.messages (m.choiceTypes options)) (by
      simp only [Declared.Apart, h])

variable {s : Scope}

def Scope.opening (s : Scope) : String :=
  match s.symbol with
  | some outer => outer ++ "_"
  | none => ""

namespace Scope

theorem symbolOf_eq (name : String) : s.symbolOf name = s.opening ++ name := by
  obtain ⟨_, _ | outer⟩ := s
  · exact (String.empty_append).symm
  · rfl

theorem opening_inside (name : String) : (s.inside name).opening = s.opening ++ (name ++ "_") := by
  rw [← String.append_assoc, ← symbolOf_eq]
  rfl

theorem symbolOf_injective : Function.Injective s.symbolOf := by
  intro a b same
  rw [symbolOf_eq, symbolOf_eq] at same
  exact (String.append_right_inj _).1 same

end Scope

theorem eq_of_append_underscore {a b a' b' : String} (plain : '_' ∉ a.toList) (plain' : '_' ∉ b.toList)
    (same : a ++ "_" ++ a' = b ++ "_" ++ b') : a = b := by
  have before {name : String} (plain : '_' ∉ name.toList) (rest : String) :
      (name ++ "_" ++ rest).toList.takeWhile (· != '_') = name.toList := by
    have own : ∀ c ∈ name.toList, (c != '_') = true := by
      intro c member
      simpa using fun same : c = '_' => plain (same ▸ member)
    rw [String.append_assoc, String.toList_append, List.takeWhile_append_of_pos own, String.toList_append]
    simp
  rw [← String.toList_inj, ← before plain a', same, before plain' b']

theorem plain_append {a b : String} : '_' ∉ (a ++ b).toList ↔ '_' ∉ a.toList ∧ '_' ∉ b.toList := by
  rw [String.toList_append, List.mem_append, not_or]

theorem Message.plain_choiceTypes (m : Message) : ∀ name ∈ m.choiceTypes options, '_' ∉ name.toList := by
  rw [choiceTypes]
  split
  next =>
    rw [List.forall_mem_map]
    exact fun c _ => Naming.pascal_ne_underscore c.1
  next => nofun

theorem forall_withPartials {p : String → Prop} {names : List String}
    (closed : ∀ name, p name → p (name ++ "Partial")) (all : ∀ name ∈ names, p name) : ∀ name ∈ withPartials options names, p name := by
  rw [withPartials, List.forall_mem_append]
  refine ⟨all, ?_⟩
  split
  next =>
    rw [List.forall_mem_map]
    exact fun name member => closed name (all name member)
  next => nofun

def Begins (opening name : String) : Prop :=
  ∃ rest, name = opening ++ rest

theorem Begins.append {opening name : String} (begins : Begins opening name) (ending : String) :
    Begins opening (name ++ ending) := by
  obtain ⟨rest, rfl⟩ := begins
  exact ⟨rest ++ ending, String.append_assoc ..⟩

theorem Begins.trans {outer opening name : String} (begins : Begins outer opening) (inner : Begins opening name) :
    Begins outer name := by
  obtain ⟨rest, rfl⟩ := inner
  exact begins.append rest

theorem begins_self (name : String) : Begins name name :=
  ⟨"", (String.append_empty).symm⟩

theorem Scope.begins_symbolOf (name : String) : Begins s.opening (s.symbolOf name) :=
  ⟨name, symbolOf_eq name⟩

theorem Scope.begins_inside (name : String) : Begins s.opening (s.inside name).opening :=
  ⟨_, opening_inside name⟩

theorem Declared.begins_itemNames (d : Declared) : ∀ name ∈ d.itemNames options, Begins d.symbol name := by
  rw [itemNames]
  split
  next => simpa using begins_self d.symbol
  next m _ =>
    refine forall_withPartials (fun name begins => begins.append "Partial") ?_
    rw [List.forall_mem_cons, List.forall_mem_map]
    exact ⟨begins_self _, fun name _ => ((begins_self _).append "_").append name⟩

mutual

theorem Message.begins_declarations (s : Scope) (m : Message) :
    ∀ d ∈ m.declarations s, Begins s.opening d.symbol := by
  match m with
  | ⟨name, fields, choices, messages, enums, isMapEntry⟩ =>
    have nested := Message.begins_declarationsOf (s.inside name) messages
    rw [Message.declarations, List.cons_append, List.forall_mem_cons, List.forall_mem_append, List.forall_mem_map]
    -- The message takes its name in this level; the others go on from what the level inside it begins with.
    refine ⟨s.begins_symbolOf name, fun e _ => ?_, fun d member => ?_⟩
    · exact (s.begins_inside name).trans ((s.inside name).begins_symbolOf e.name)
    · exact (s.begins_inside name).trans (nested d member)

theorem Message.begins_declarationsOf (s : Scope) (ms : List Message) :
    ∀ d ∈ Message.declarationsOf s ms, Begins s.opening d.symbol := by
  match ms with
  | [] => nofun
  | m :: ms =>
    rw [Message.declarationsOf, List.forall_mem_append]
    exact ⟨Message.begins_declarations s m, Message.begins_declarationsOf s ms⟩

end

def levelNames (options : Options) (s : Scope) (enums : List Enum) (messages : List Message)
    (choiceTypes : List String) : List String :=
  enums.map (s.symbolOf ·.name) ++ (Message.declarationsOf s messages).flatMap (·.itemNames options) ++
    withPartials options (choiceTypes.map s.symbolOf)

theorem begins_levelNames {enums : List Enum} {messages : List Message} {choiceTypes : List String} :
    ∀ name ∈ levelNames options s enums messages choiceTypes, Begins s.opening name := by
  rw [levelNames, List.forall_mem_append, List.forall_mem_append, List.forall_mem_map, List.forall_mem_flatMap]
  refine ⟨⟨fun e _ => s.begins_symbolOf e.name, fun d member name item => ?_⟩, ?_⟩
  · exact (Message.begins_declarationsOf s messages d member).trans (d.begins_itemNames name item)
  · refine forall_withPartials (fun name begins => begins.append "Partial") ?_
    rw [List.forall_mem_map]
    exact fun name _ => s.begins_symbolOf name

def Message.innerNames (options : Options) (s : Scope) (m : Message) : List String :=
  levelNames options (s.inside m.name) m.enums m.messages (m.choiceTypes options)

theorem Message.begins_innerNames (m : Message) :
    ∀ name ∈ m.innerNames options s, Begins (s.opening ++ (m.name ++ "_")) name := by
  rw [← Scope.opening_inside]
  exact begins_levelNames

-- Names of one level and those inside its messages

theorem nodup_level {locals : List String} {messages : List Message} (plain : ∀ name ∈ locals, '_' ∉ name.toList)
    (declared : ∀ m ∈ messages, '_' ∉ m.name.toList) (distinct : (messages.map (·.name)).Nodup) :
    (locals.map s.symbolOf ++ messages.flatMap (·.innerNames options s)).Nodup ↔
      locals.Nodup ∧ ∀ m ∈ messages, (m.innerNames options s).Nodup := by
  -- A name inside a message goes on with that message's name and an underscore.
  have apart : messages.Pairwise fun m m' => (m.innerNames options s).Disjoint (m'.innerNames options s) := by
    refine (List.pairwise_map.1 distinct).imp_of_mem fun {m m'} member member' differ => ?_
    rintro name inner inner'
    obtain ⟨rest, rfl⟩ := m.begins_innerNames name inner
    obtain ⟨rest', same⟩ := m'.begins_innerNames _ inner'
    rw [@String.append_assoc s.opening, @String.append_assoc s.opening, String.append_right_inj] at same
    exact differ (eq_of_append_underscore (declared m member) (declared m' member') same)
  -- No name of the level itself has an underscore to go on with.
  have outside : ∀ name ∈ locals.map s.symbolOf, ∀ name' ∈ messages.flatMap (·.innerNames options s),
      name ≠ name' := by
    rw [List.forall_mem_map]
    intro name member name' inner same
    obtain ⟨m, member', inner⟩ := List.mem_flatMap.1 inner
    obtain ⟨rest, rfl⟩ := m.begins_innerNames name' inner
    rw [Scope.symbolOf_eq, @String.append_assoc s.opening, String.append_right_inj] at same
    refine plain name member ?_
    rw [same]
    simp
  rw [List.nodup_append, List.nodup_map_iff Scope.symbolOf_injective, List.nodup_flatMap]
  exact ⟨fun ⟨own, inner, _⟩ => ⟨own, inner.1⟩, fun ⟨own, inner⟩ => ⟨own, ⟨inner, apart⟩, outside⟩⟩

-- The items of a declaration are of two levels: its own, and the one inside it.

theorem perm_append_append (a b c d : List String) : (a ++ b ++ (c ++ d)).Perm (a ++ c ++ (b ++ d)) := by
  rw [List.perm_iff_count]
  intro name
  simp only [List.count_append]
  omega

theorem perm_withPartials (options : Options) (names names' : List String) :
    (withPartials options (names ++ names')).Perm (withPartials options names ++ withPartials options names') := by
  rw [withPartials, withPartials, withPartials]
  split
  next =>
    rw [List.map_append]
    exact perm_append_append ..
  next => simp

theorem withPartials_perm {names names' : List String} (perm : names.Perm names') :
    (withPartials options names).Perm (withPartials options names') := by
  rw [withPartials, withPartials]
  split
  next => exact perm.append (perm.map _)
  next => exact perm.append_right _

theorem map_withPartials (names : List String) :
    (withPartials options names).map s.symbolOf = withPartials options (names.map s.symbolOf) := by
  have ending : s.symbolOf ∘ (· ++ "Partial") = (· ++ "Partial") ∘ s.symbolOf := by
    funext name
    simp only [Function.comp_apply, Scope.symbolOf_eq, String.append_assoc]
  rw [withPartials, withPartials]
  split <;> simp [ending]

theorem flatMap_declareEnum (enums : List Enum) :
    (enums.map s.declareEnum).flatMap (·.itemNames options) = enums.map (s.symbolOf ·.name) := by
  rw [List.flatMap_map]
  exact List.flatMap_pure_eq_map ..

theorem Message.perm_declarations (options : Options) (s : Scope) (m : Message) :
    ((m.declarations s).flatMap (·.itemNames options)).Perm
      (withPartials options [s.symbolOf m.name] ++ m.innerNames options s) := by
  have own : (s.declareMessage m).itemNames options =
      withPartials options ([s.symbolOf m.name] ++ (m.choiceTypes options).map (s.inside m.name).symbolOf) := rfl
  rw [Message.declarations_eq, List.cons_append, List.flatMap_cons, List.flatMap_append, own, flatMap_declareEnum,
    innerNames, levelNames]
  refine ((perm_withPartials options _ _).append_right _).trans ?_
  rw [List.append_assoc]
  exact List.perm_append_comm.append_left _

theorem Message.perm_declarationsOf (options : Options) (s : Scope) (ms : List Message) :
    ((Message.declarationsOf s ms).flatMap (·.itemNames options)).Perm
      (withPartials options (ms.map (s.symbolOf ·.name)) ++ ms.flatMap (·.innerNames options s)) := by
  induction ms with
  | nil => simp [Message.declarationsOf, withPartials]
  | cons m ms ih =>
    have both : (withPartials options ((m :: ms).map (s.symbolOf ·.name))).Perm
        (withPartials options [s.symbolOf m.name] ++ withPartials options (ms.map (s.symbolOf ·.name))) :=
      perm_withPartials options [_] _
    rw [Message.declarationsOf, List.flatMap_append, List.flatMap_cons]
    exact ((Message.perm_declarations options s m).append ih).trans
      ((perm_append_append ..).trans (both.symm.append_right _))

def localNames (options : Options) (enums : List Enum) (messages : List Message) (choiceTypes : List String) :
    List String :=
  enums.map (·.name) ++ withPartials options (messages.map (·.name) ++ choiceTypes)

section Level

variable {enums : List Enum} {messages : List Message} {choiceTypes : List String}

theorem perm_levelNames : (levelNames options s enums messages choiceTypes).Perm
    ((localNames options enums messages choiceTypes).map s.symbolOf ++
      messages.flatMap (·.innerNames options s)) := by
  have own := perm_withPartials options (messages.map (s.symbolOf ·.name)) (choiceTypes.map s.symbolOf)
  have names : (messages.map (·.name)).map s.symbolOf = messages.map (s.symbolOf ·.name) := List.map_map ..
  have enumNames : (enums.map (·.name)).map s.symbolOf = enums.map (s.symbolOf ·.name) := List.map_map ..
  rw [levelNames, localNames, List.map_append, map_withPartials, List.map_append, names, enumNames]
  -- The names inside the messages go to the end, behind the types of the choices.
  refine (((Message.perm_declarationsOf options s messages).append_left _).append_right _).trans
    (List.Perm.trans ?_ ((own.symm.append_left _).append_right _))
  rw [List.append_assoc, List.append_assoc, List.append_assoc, List.append_assoc]
  exact (List.perm_append_comm.append_left _).append_left _

theorem nodup_localNames (distinct : (enums.map (·.name) ++ messages.map (·.name)).Nodup) :
    (localNames options enums messages choiceTypes).Nodup ↔ Apart options enums messages choiceTypes := by
  have parts : localNames options enums messages choiceTypes =
      (enums.map (·.name) ++ messages.map (·.name)) ++ derivedNames options messages choiceTypes := by
    rw [localNames, withPartials, derivedNames]
    simp only [List.append_assoc]
  rw [parts, List.nodup_append]
  constructor
  · rintro ⟨-, derived, apart⟩
    exact ⟨derived, fun name declared also => apart name declared name also rfl⟩
  · rintro ⟨derived, apart⟩
    exact ⟨distinct, derived, fun name declared name' also same => apart name declared (same ▸ also)⟩

theorem sublist_declarationsOf :
    (messages.map s.declareMessage).Sublist (Message.declarationsOf s messages) := by
  induction messages with
  | nil => exact List.Sublist.slnil
  | cons m ms ih =>
    rw [Message.declarationsOf, Message.declarations_eq, List.cons_append]
    exact (ih.trans (List.sublist_append_right ..)).cons_cons _

theorem nodup_names
    (distinct : ((enums.map s.declareEnum ++ Message.declarationsOf s messages).map (·.fullName)).Nodup) :
    (enums.map (·.name) ++ messages.map (·.name)).Nodup := by
  -- The declarations of the level itself are some of all the declarations, and their full names begin alike.
  have own := distinct.sublist ((sublist_declarationsOf.append_left _).map _)
  have full : (enums.map s.declareEnum ++ messages.map s.declareMessage).map (·.fullName) =
      (enums.map (·.name) ++ messages.map (·.name)).map s.fullNameOf := by
    simp only [List.map_append, List.map_map]
    rfl
  rw [full] at own
  exact own.of_map

-- The names of a level and of what is in it are distinct if they are in the level and in each message.
theorem nodup_levelNames
    (distinct : ((enums.map s.declareEnum ++ Message.declarationsOf s messages).map (·.fullName)).Nodup)
    (plain : ∀ d ∈ enums.map s.declareEnum ++ Message.declarationsOf s messages, '_' ∉ d.declaration.name.toList)
    (choices : ∀ name ∈ choiceTypes, '_' ∉ name.toList)
    (inside : (∀ m ∈ messages, (m.innerNames options s).Nodup) ↔
      ∀ d ∈ Message.declarationsOf s messages, d.Apart options) :
    (levelNames options s enums messages choiceTypes).Nodup ↔
      Apart options enums messages choiceTypes ∧
        ∀ d ∈ enums.map s.declareEnum ++ Message.declarationsOf s messages, d.Apart options := by
  have enumNames : ∀ e ∈ enums, '_' ∉ e.name.toList := fun e member =>
    plain (s.declareEnum e) (List.mem_append_left _ (List.mem_map_of_mem member))
  have messageNames : ∀ m ∈ messages, '_' ∉ m.name.toList := fun m member =>
    plain (s.declareMessage m)
      (List.mem_append_right _ (sublist_declarationsOf.subset (List.mem_map_of_mem member)))
  have locals : ∀ name ∈ localNames options enums messages choiceTypes, '_' ∉ name.toList := by
    rw [localNames, List.forall_mem_append, List.forall_mem_map]
    refine ⟨enumNames, forall_withPartials (fun name plain => plain_append.2 ⟨plain, by decide⟩) ?_⟩
    rw [List.forall_mem_append, List.forall_mem_map]
    exact ⟨messageNames, choices⟩
  have names := nodup_names distinct
  rw [perm_levelNames.nodup_iff, nodup_level locals messageNames (names.of_append_right),
    nodup_localNames names, inside, List.forall_mem_append, List.forall_mem_map]
  exact and_congr_right fun _ => (and_iff_right fun _ _ => trivial).symm

end Level

variable (options)

mutual

theorem Message.nodup_innerNames (s : Scope) (m : Message)
    (distinct : ((m.declarations s).map (·.fullName)).Nodup) (plain : ∀ d ∈ m.declarations s, '_' ∉ d.declaration.name.toList) :
    (m.innerNames options s).Nodup ↔ ∀ d ∈ m.declarations s, d.Apart options := by
  match m with
  | ⟨name, fields, choices, messages, enums, isMapEntry⟩ =>
    -- The declaration of the message itself comes first, and the rest is the level inside it.
    rw [Message.declarations, List.cons_append] at distinct plain ⊢
    rw [List.map_cons, List.nodup_cons] at distinct
    rw [List.forall_mem_cons] at plain ⊢
    have nested := distinct.2.sublist ((List.sublist_append_right _ _).map _)
    exact nodup_levelNames distinct.2 plain.2 (Message.plain_choiceTypes _)
      (Message.nodup_innerNamesOf (s.inside name) messages nested fun d member =>
        plain.2 d (List.mem_append_right _ member))

theorem Message.nodup_innerNamesOf (s : Scope) (ms : List Message)
    (distinct : ((Message.declarationsOf s ms).map (·.fullName)).Nodup)
    (plain : ∀ d ∈ Message.declarationsOf s ms, '_' ∉ d.declaration.name.toList) :
    (∀ m ∈ ms, (m.innerNames options s).Nodup) ↔ ∀ d ∈ Message.declarationsOf s ms, d.Apart options := by
  match ms with
  | [] => exact iff_of_true nofun nofun
  | m :: ms =>
    rw [Message.declarationsOf] at distinct plain ⊢
    rw [List.map_append] at distinct
    rw [List.forall_mem_append] at plain ⊢
    rw [List.forall_mem_cons]
    exact and_congr (Message.nodup_innerNames s m distinct.of_append_left plain.1)
      (Message.nodup_innerNamesOf s ms distinct.of_append_right plain.2)

end

theorem File.nodup_itemNames (f : File) (distinct : (f.declarations.map (·.fullName)).Nodup)
    (plain : ∀ d ∈ f.declarations, '_' ∉ d.declaration.name.toList) :
    (f.declarations.flatMap (·.itemNames options)).Nodup ↔
      Apart options f.enums f.messages [] ∧ ∀ d ∈ f.declarations, d.Apart options := by
  rw [File.declarations_eq] at distinct plain ⊢
  have nested := distinct.sublist ((List.sublist_append_right _ _).map _)
  have inside := Message.nodup_innerNamesOf options f.topLevel f.messages nested fun d member =>
    plain d (List.mem_append_right _ member)
  -- The top level has no types of choices.
  rw [← nodup_levelNames distinct plain (List.forall_mem_nil _) inside, levelNames, List.flatMap_append,
    flatMap_declareEnum]
  simp [withPartials]

end Protogen.Schema
