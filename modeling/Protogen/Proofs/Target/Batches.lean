import Protogen.Proofs.Target.Mapping
import Protogen.Target.Batch

set_option autoImplicit false

namespace Protogen

namespace Naming

def AsksMany (name : String) : Prop :=
  ∃ opening ∈ ["Batch", "Bulk"], ∃ c rest, name.toList = opening.toList ++ c :: rest ∧ c.isUpper = true

theorem stripStart?_eq_some {s opening rest : String} :
    stripStart? s opening = some rest ↔ s.toList = opening.toList ++ rest.toList := by
  rw [stripStart?]
  split
  next starts =>
    obtain ⟨cs, split⟩ := List.isPrefixOf_iff_prefix.1 starts
    rw [← split, List.append_right_inj, ← String.length_toList, List.drop_left, Option.some.injEq, ← String.toList_inj,
      String.toList_ofList]
  next other =>
    refine ⟨nofun, fun split => absurd ?_ other⟩
    rw [split]
    exact List.isPrefixOf_iff_prefix.2 (List.prefix_append ..)

theorem exists_accessor_iff {name : String} : (∃ accessor, accessor? name = some accessor) ↔ AsksMany name := by
  constructor
  next =>
    rintro ⟨accessor, made⟩
    obtain ⟨stem, stripped, made⟩ := Option.bind_eq_some_iff.1 made
    split at made
    next c rest begins =>
      split at made
      next capital =>
        rw [Option.orElse_eq_orElse, Option.orElse_eq_or, Option.or_eq_some_iff] at stripped
        obtain stripped | ⟨-, stripped⟩ := stripped
        next => exact ⟨"Batch", by simp, c, rest, begins ▸ stripStart?_eq_some.1 stripped, capital⟩
        next => exact ⟨"Bulk", by simp, c, rest, begins ▸ stripStart?_eq_some.1 stripped, capital⟩
      next => cases made
    next => cases made
  next =>
    rintro ⟨opening, opened, c, rest, split, capital⟩
    have stripped : stripStart? name opening = some (String.ofList (c :: rest)) :=
      stripStart?_eq_some.2 (by rw [split, String.toList_ofList])
    have stem : (stripStart? name "Batch" <|> stripStart? name "Bulk") = some (String.ofList (c :: rest)) := by
      rw [Option.orElse_eq_orElse, Option.orElse_eq_or, Option.or_eq_some_iff]
      simp only [List.mem_cons, List.not_mem_nil, or_false] at opened
      obtain rfl | rfl := opened
      next => exact .inl stripped
      next =>
        -- A name does not begin with both words.
        refine .inr ⟨Option.eq_none_iff_forall_ne_some.2 fun other begun => ?_, stripped⟩
        have both := split.symm.trans (stripStart?_eq_some.1 begun)
        simp at both
    refine Option.isSome_iff_exists.1 ?_
    simp [accessor?, stem, capital]

end Naming

namespace Target

open Schema (Index)

variable {ctx : Context} {owner type : String} {f : Schema.Field} {g : Field} {m : Schema.Method} {s : Schema.Service}

def ListOf (ctx : Context) (owner : String) (f : Schema.Field) (type : String) : Prop :=
  f.isRepeated = true ∧ ¬f.IsMap ctx.index ∧
    ∃ base, Base.ofField ctx owner f (owner ++ "." ++ f.name) = .ok base ∧ base.type = type

def MapBy (ctx : Context) (owner : String) (f : Schema.Field) (type : String) : Prop :=
  f.isRepeated = true ∧ f.kind = .message ∧ ∃ target entry key value, f.typeName = some target ∧
    ctx.index.HasMessage target entry ∧ entry.isMapEntry = true ∧ entry.fields = [key, value] ∧
    ∃ base, Base.ofField ctx target key (owner ++ "." ++ f.name) = .ok base ∧ base.type = type

def Single (index : Index) (name : String) (f : Schema.Field) : Prop :=
  ∃ message, index.HasMessage name message ∧ message.fields = [f]

/-- The method asks for many results, and its messages hold the keys and the results. -/
structure Eligible (ctx : Context) (m : Schema.Method) (keyType : String) (keyed : Bool) : Prop where
  unary : m.clientStreaming = false ∧ m.serverStreaming = false
  named : Naming.AsksMany m.name
  keys : ∃ f, Single ctx.index m.input f ∧ ListOf ctx m.input f keyType
  results : ∃ g, Single ctx.index m.output g ∧
    if keyed then MapBy ctx m.output g keyType else ∃ type, ListOf ctx m.output g type

theorem MapBy.isMap (map : MapBy ctx owner f type) : f.IsMap ctx.index := by
  obtain ⟨repeated, kind, target, entry, key, value, named, indexed, isEntry, -⟩ := map
  exact ⟨repeated, kind, target, entry, named, indexed, isEntry⟩

theorem containerOf_eq_repeated {base : Base} : containerOf ctx f base = .repeated ↔ f.isRepeated = true := by
  rw [containerOf]
  grind [singular]

theorem listOf_iff (success : Field.ofSchema ctx owner f = .ok g) :
    ListOf ctx owner f type ↔ g.container = .repeated ∧ g.base.type = type := by
  cases Field.mapped_ofSchema success with
  | plain other success =>
    obtain ⟨base, typed, mapped⟩ := ok_of_bind success
    cases mapped
    simp only [ListOf, typed, containerOf_eq_repeated, Except.ok.injEq, exists_eq_left', other, not_false_eq_true,
      true_and]
  | map repeated kind named indexed isEntry _ _ _ result =>
    subst result
    exact ⟨fun list => absurd ⟨repeated, kind, _, _, named, indexed, isEntry⟩ list.2.1, nofun⟩

theorem mapBy_iff (success : Field.ofSchema ctx owner f = .ok g) :
    MapBy ctx owner f type ↔ ∃ shape, g.container = .map shape ∧ shape.key.type = type := by
  cases Field.mapped_ofSchema success with
  | plain other success =>
    obtain ⟨base, -, mapped⟩ := ok_of_bind success
    cases mapped
    refine ⟨fun map => absurd map.isMap other, ?_⟩
    rintro ⟨shape, container, -⟩
    exact absurd container (containerOf_ne_map base shape)
  | map repeated kind named indexed isEntry fields keyed _ result =>
    subst result
    constructor
    next =>
      rintro ⟨-, -, target, entry, key, value, named', indexed', -, fields', base, keyed', typed⟩
      cases named.symm.trans named'
      cases indexed.unique indexed'
      cases fields.symm.trans fields'
      cases keyed.symm.trans keyed'
      exact ⟨_, rfl, typed⟩
    next =>
      rintro ⟨shape, container, typed⟩
      cases container
      exact ⟨repeated, kind, _, _, _, _, named, indexed, isEntry, fields, _, keyed, typed⟩

theorem gives_field (sound : ctx.index.Sound) {name : String} {message : Schema.Message} {f : Schema.Field}
    (indexed : ctx.index.HasMessage name message) (member : f ∈ message.fields) :
    Gives (Field.ofSchema ctx name f) (Field.Maps ctx.index f) :=
  Field.gives_ofSchema sound ((sound.message indexed).1.fields f member) ((sound.message indexed).2 f member)

theorem gives_message {name context : String} {message : Schema.Message}
    (indexed : ctx.index.HasMessage name message) : Gives (ctx.index.message name context) (message = ·) :=
  ⟨message, Index.message_eq_ok.2 indexed, rfl⟩

namespace BatchMethod

theorem gives_ofMethod? (sound : ctx.index.Sound) (valid : m.Valid ctx.index) :
    Gives (ofMethod? ctx m) fun _ => True := by
  obtain ⟨⟨input, asked⟩, ⟨output, answered⟩⟩ := valid
  -- Wherever the method turns out to be another kind of method, there is no accessor and no error.
  rw [ofMethod?]
  split
  next => exact .ok trivial
  split
  case h_2 => exact .ok trivial
  next accessor _ =>
    refine (gives_message asked).bind ?_
    rintro _ rfl
    refine (gives_message answered).bind ?_
    rintro _ rfl
    split
    case h_2 => exact .ok trivial
    next keyField keyFields =>
      split
      case h_2 => exact .ok trivial
      next resultField resultFields =>
        split
        next => exact .ok trivial
        refine (gives_field sound asked (by simp [keyFields])).bind fun keys _ => ?_
        split
        next => exact .ok trivial
        refine (gives_field sound answered (by simp [resultFields])).bind fun results _ => ?_
        extract_lets keyed
        clear_value keyed
        split
        case h_2 => exact .ok trivial
        next keyed _ =>
          obtain ⟨e, found, -⟩ := asked
          exact (gives_path found "").bind fun path _ => .ok trivial

structure For (ctx : Context) (m : Schema.Method) (b : BatchMethod) : Prop where
  method : b.method = m
  accessor : Naming.accessor? m.name = some b.accessor
  eligible : Eligible ctx m b.keyType b.keyed

theorem for_of_some {b : BatchMethod} (found : ofMethod? ctx m = .ok (some b)) : b.For ctx m := by
  -- What is no such method gives nothing, and what is one is given with itself.
  rw [ofMethod?] at found
  split at found
  next => cases found
  split at found
  case h_2 => cases found
  next unary _ accessor named =>
    obtain ⟨input, asked, found⟩ := ok_of_bind found
    obtain ⟨output, answered, found⟩ := ok_of_bind found
    split at found
    case h_2 => cases found
    next keyField keyFields =>
      split at found
      case h_2 => cases found
      next resultField resultFields =>
        split at found
        next => cases found
        obtain ⟨keys, mapped, found⟩ := ok_of_bind found
        split at found
        next => cases found
        next repeated =>
          obtain ⟨results, mapped', found⟩ := ok_of_bind found
          extract_lets keyed at found
          have held : ∀ k, keyed = some k → if k then MapBy ctx m.output resultField keys.base.type
              else ∃ type, ListOf ctx m.output resultField type := by
            intro k known
            dsimp only [keyed] at known
            split at known
            next container =>
              cases known
              exact ⟨_, (listOf_iff mapped').2 ⟨container, rfl⟩⟩
            next shape container =>
              split at known
              next same =>
                cases known
                exact (mapBy_iff mapped').2 ⟨shape, container, same⟩
              next => cases known
            next => cases known
          clear_value keyed
          split at found
          case h_2 => cases found
          next keyed =>
            obtain ⟨path, -, found⟩ := ok_of_bind found
            cases found
            have list : ListOf ctx m.input keyField keys.base.type :=
              (listOf_iff mapped).2 ⟨by simpa using repeated, rfl⟩
            exact ⟨rfl, named, by simpa using unary, Naming.exists_accessor_iff.1 ⟨_, named⟩,
              ⟨keyField, ⟨input, Index.message_eq_ok.1 asked, keyFields⟩, list⟩,
              resultField, ⟨output, Index.message_eq_ok.1 answered, resultFields⟩, held keyed rfl⟩

theorem exists_of_eligible (sound : ctx.index.Sound) {keyType : String} {keyed : Bool}
    (eligible : Eligible ctx m keyType keyed) : ∃ b, ofMethod? ctx m = .ok (some b) := by
  obtain ⟨⟨single, single'⟩, named, ⟨f, ⟨input, asked, keyFields⟩, list⟩, g, ⟨output, answered, resultFields⟩, held⟩ :=
    eligible
  obtain ⟨accessor, named⟩ := Naming.exists_accessor_iff.2 named
  obtain ⟨keys, mapped, -⟩ := gives_field sound asked (f := f) (by simp [keyFields])
  obtain ⟨results, mapped', -⟩ := gives_field sound answered (f := g) (by simp [resultFields])
  obtain ⟨container, typed⟩ := (listOf_iff mapped).1 list
  have ⟨repeated, shape⟩ : g.isRepeated = true ∧ (results.container = .repeated ∨
      ∃ shape, results.container = .map shape ∧ shape.key.type = keys.base.type) := by
    rw [typed]
    split at held
    next => exact ⟨held.1, .inr ((mapBy_iff mapped').1 held)⟩
    next =>
      obtain ⟨type, held⟩ := held
      exact ⟨held.1, .inl ((listOf_iff mapped').1 held).1⟩
  have found : ctx.index.message m.input m.name = .ok input := Index.message_eq_ok.2 asked
  have found' : ctx.index.message m.output m.name = .ok output := Index.message_eq_ok.2 answered
  obtain ⟨e, indexed, -⟩ := asked
  obtain ⟨path, located, -⟩ := gives_path indexed ""
  simp only [ofMethod?, single, single', named, found, found', keyFields, resultFields, list.1, repeated, mapped,
    container, mapped', bind, Except.bind, located, pure, Except.pure]
  obtain container' | ⟨shape, container', same⟩ := shape
  next => exact ⟨_, by simp only [container']; rfl⟩
  next => exact ⟨_, by simp only [container', same, if_true]; rfl⟩

-- The accessors of a service

/-- The method at the place gets an accessor: it can have one, whose name is neither taken nor that of one before. -/
def Chosen (ctx : Context) (taken : List String) (methods : List Schema.Method) (places : List Nat) (i : Nat) : Prop :=
  ∃ m accessor, methods[i]? = some m ∧ (∃ keyType keyed, Eligible ctx m keyType keyed) ∧
    Naming.accessor? m.name = some accessor ∧ accessor ∉ taken ∧
      ∀ j ∈ places, j < i → ∀ m', methods[j]? = some m' → Naming.accessor? m'.name ≠ some accessor

/-- These are the accessors of the methods, for those at these places. -/
structure Selects (ctx : Context) (taken : List String) (methods : List Schema.Method) (places : List Nat)
    (batches : List BatchMethod) : Prop where
  increasing : places.Pairwise (· < ·)
  each : List.Forall₂ (fun i b => ∃ m, methods[i]? = some m ∧ b.For ctx m) places batches
  chosen : ∀ i, i ∈ places ↔ Chosen ctx taken methods places i

variable {taken : List String} {methods methods' : List Schema.Method} {places places' : List Nat}
  {batches : List BatchMethod} {i : Nat}

-- Whether a place is chosen is a matter of the methods up to it, and of the places before it.
theorem chosen_congr (methods_eq : ∀ j ≤ i, methods[j]? = methods'[j]?)
    (places_iff : ∀ j < i, j ∈ places ↔ j ∈ places') :
    Chosen ctx taken methods places i ↔ Chosen ctx taken methods' places' i := by
  simp only [Chosen, methods_eq i (Nat.le_refl i)]
  refine exists_congr fun m => exists_congr fun accessor => and_congr_right fun _ => and_congr_right fun _ =>
    and_congr_right fun _ => and_congr_right fun _ => ?_
  constructor
  next =>
    intro others j member before m' here
    exact others j ((places_iff j before).2 member) before m' ((methods_eq j (Nat.le_of_lt before)).trans here)
  next =>
    intro others j member before m' here
    exact others j ((places_iff j before).1 member) before m' ((methods_eq j (Nat.le_of_lt before)).symm.trans here)

namespace Selects

theorem lt_length (selects : Selects ctx taken methods places batches) : ∀ i ∈ places, i < methods.length := by
  intro i member
  obtain ⟨b, -, m, here, -⟩ := exists_of_forall₂ selects.each.flip i member
  exact (List.getElem?_eq_some_iff.1 here).1

theorem each_concat (selects : Selects ctx taken methods places batches) (m : Schema.Method) :
    List.Forall₂ (fun i b => ∃ m', (methods ++ [m])[i]? = some m' ∧ b.For ctx m') places batches := by
  refine selects.each.imp fun i b found => ?_
  obtain ⟨m', here, own⟩ := found
  exact ⟨m', by rw [List.getElem?_append_left (List.getElem?_eq_some_iff.1 here).1, here], own⟩

theorem chosen_concat (selects : Selects ctx taken methods places batches) (m : Schema.Method)
    (inside : i < methods.length) (same : ∀ j < methods.length, j ∈ places ↔ j ∈ places') :
    i ∈ places' ↔ Chosen ctx taken (methods ++ [m]) places' i := by
  rw [← same i inside, selects.chosen]
  exact chosen_congr (fun j before => (List.getElem?_append_left (Nat.lt_of_le_of_lt before inside)).symm)
    fun j before => same j (Nat.lt_trans before inside)

theorem not_chosen_beyond (beyond : methods.length ≤ i) : ¬Chosen ctx taken methods places i := by
  rintro ⟨m, accessor, here, -⟩
  rw [List.getElem?_eq_none beyond] at here
  cases here

-- A method without an accessor, or with one whose name is taken, is left out.
theorem skip (selects : Selects ctx taken methods places batches)
    (refused : ∀ keyType keyed accessor, Eligible ctx m keyType keyed → Naming.accessor? m.name = some accessor →
      accessor ∈ taken ∨ ∃ b ∈ batches, b.accessor = accessor) :
    Selects ctx taken (methods ++ [m]) places batches := by
  refine ⟨selects.increasing, selects.each_concat m, fun i => ?_⟩
  obtain inside | rfl | beyond := Nat.lt_trichotomy i methods.length
  next => exact selects.chosen_concat m inside fun _ _ => Iff.rfl
  next =>
    refine iff_of_false (fun member => Nat.lt_irrefl _ (selects.lt_length _ member)) ?_
    rintro ⟨m', accessor, here, ⟨keyType, keyed, eligible⟩, named, free, fresh⟩
    rw [List.getElem?_concat_length, Option.some.injEq] at here
    subst here
    obtain used | ⟨b, listed, rfl⟩ := refused keyType keyed accessor eligible named
    next => exact free used
    next =>
      obtain ⟨j, member, m', here, own⟩ := exists_of_forall₂ (selects.each_concat m) b listed
      exact fresh j member (selects.lt_length j member) m' here own.accessor
  next =>
    refine iff_of_false (fun member => Nat.lt_asymm beyond (selects.lt_length _ member)) (not_chosen_beyond ?_)
    rwa [List.length_append]

theorem take (selects : Selects ctx taken methods places batches) {b : BatchMethod} (own : b.For ctx m)
    (free : b.accessor ∉ taken) (fresh : ∀ b' ∈ batches, b'.accessor ≠ b.accessor) :
    Selects ctx taken (methods ++ [m]) (places ++ [methods.length]) (batches ++ [b]) := by
  have here : (methods ++ [m])[methods.length]? = some m := List.getElem?_concat_length
  have same : ∀ j < methods.length, j ∈ places ↔ j ∈ places ++ [methods.length] := by
    intro j inside
    simp [Nat.ne_of_lt inside]
  refine ⟨?_, ?_, fun i => ?_⟩
  next =>
    refine List.pairwise_append.2 ⟨selects.increasing, List.pairwise_singleton .., fun j member k last => ?_⟩
    rw [List.mem_singleton.1 last]
    exact selects.lt_length j member
  next => exact List.rel_append (selects.each_concat m) (.cons ⟨m, here, own⟩ .nil)
  next =>
    obtain inside | rfl | beyond := Nat.lt_trichotomy i methods.length
    next => exact selects.chosen_concat m inside same
    next =>
      refine iff_of_true (by simp) ⟨m, b.accessor, here, ⟨_, _, own.eligible⟩, own.accessor, free, ?_⟩
      intro j member before m' here' named
      obtain ⟨b', listed, m'', here'', own'⟩ :=
        exists_of_forall₂ (selects.each_concat m).flip j ((same j before).2 member)
      obtain rfl := Option.some.inj (here'.symm.trans here'')
      exact fresh b' listed (Option.some.inj (own'.accessor.symm.trans named))
    next =>
      refine iff_of_false (fun member => ?_) (not_chosen_beyond (by rwa [List.length_append]))
      obtain member | last := List.mem_append.1 member
      next => exact Nat.lt_asymm beyond (selects.lt_length _ member)
      next => exact Nat.ne_of_gt beyond (List.mem_singleton.1 last)

theorem nodup_accessors (selects : Selects ctx taken methods places batches) : (batches.map (·.accessor)).Nodup := by
  rw [List.Nodup, List.pairwise_map]
  refine pairwise_of_forall₂ selects.each selects.increasing fun i earlier j member before b b' found found' same => ?_
  obtain ⟨m, here, own⟩ := found
  obtain ⟨m', here', own'⟩ := found'
  -- The later one is chosen, so its name is none of those before it.
  obtain ⟨m'', accessor, here'', -, named, -, fresh⟩ := (selects.chosen j).1 member
  obtain rfl := Option.some.inj (here'.symm.trans here'')
  obtain rfl := Option.some.inj (own'.accessor.symm.trans named)
  exact fresh i earlier before m here (own.accessor.trans (congrArg some same))

theorem accessor_not_mem (selects : Selects ctx taken methods places batches) :
    ∀ b ∈ batches, b.accessor ∉ taken := by
  intro b listed
  obtain ⟨i, member, m, here, own⟩ := exists_of_forall₂ selects.each b listed
  obtain ⟨m', accessor, here', -, named, free, -⟩ := (selects.chosen i).1 member
  obtain rfl := Option.some.inj (here.symm.trans here')
  obtain rfl := Option.some.inj (own.accessor.symm.trans named)
  exact free

theorem nodup_loaderFields (selects : Selects ctx taken methods places batches) :
    (batches.map loaderField).Nodup := by
  have distinct := selects.nodup_accessors
  rw [List.Nodup, List.pairwise_map] at distinct ⊢
  refine distinct.imp fun differ same => differ ?_
  rw [loaderField, loaderField, ← String.toList_inj, String.toList_append, String.toList_append,
    List.append_left_inj, String.toList_inj] at same
  exact same

end Selects

def addMethod (ctx : Context) (taken : List String) (found : List BatchMethod) (m : Schema.Method) :
    Except CompileError (List BatchMethod) := do
  match ← ofMethod? ctx m with
  | none => return found
  | some b =>
    if taken.contains b.accessor || found.any (·.accessor == b.accessor) then return found
    else return found ++ [b]

theorem gives_addMethod (sound : ctx.index.Sound) (valid : m.Valid ctx.index)
    (selects : Selects ctx taken methods places batches) :
    Gives (addMethod ctx taken batches m) fun batches =>
      ∃ places, Selects ctx taken (methods ++ [m]) places batches := by
  obtain ⟨found, made, -⟩ := gives_ofMethod? sound valid
  rw [addMethod, made]
  cases found with
  | none =>
    refine .ok ⟨places, selects.skip fun keyType keyed accessor eligible _ => ?_⟩
    obtain ⟨b, made'⟩ := exists_of_eligible sound eligible
    cases made.symm.trans made'
  | some b =>
    have own := for_of_some made
    change Gives (if _ then _ else _) _
    split
    next used =>
      refine .ok ⟨places, selects.skip fun keyType keyed accessor _ named => ?_⟩
      cases own.accessor.symm.trans named
      simpa using used
    next free =>
      rw [Bool.or_eq_true, not_or] at free
      refine .ok ⟨_, selects.take own (by simpa using free.1) (by simpa using free.2)⟩

theorem gives_ofService (sound : ctx.index.Sound) (valid : ∀ m ∈ s.methods, m.Valid ctx.index) :
    Gives (ofService ctx s) fun batches => ∃ places,
      Selects ctx (s.methods.map fun m => Naming.fieldIdent m.name) s.methods places batches := by
  have run (taken : List String) (methods : List Schema.Method) (valid : ∀ m ∈ methods, m.Valid ctx.index) :
      Gives (methods.foldlM (addMethod ctx taken) []) fun batches => ∃ places,
        Selects ctx taken methods places batches := by
    induction methods using List.reverseRecOn with
    | nil =>
      have none : ∀ i, ¬Chosen ctx taken [] [] i := fun i => Selects.not_chosen_beyond (Nat.zero_le i)
      exact .ok ⟨[], .nil, .nil, fun i => iff_of_false List.not_mem_nil (none i)⟩
    | append_singleton methods m ih =>
      obtain ⟨valid, last⟩ := List.forall_mem_append.1 valid
      rw [List.foldlM_append]
      refine (ih valid).bind fun batches selected => ?_
      obtain ⟨places, selects⟩ := selected
      rw [List.foldlM_cons]
      exact (gives_addMethod sound (List.forall_mem_singleton.1 last) selects).bind fun _ selected => .ok selected
  exact run _ s.methods valid

/-- A service gets accessors exactly for its methods that look up many results at once, less those whose accessor has
the name of a method or of an accessor before it; so no two accessors and no two loaders have one name. -/
theorem accessors_exact {files : List Schema.File} {index : Index} {file : Schema.File} (options : Options)
    (built : Index.ofFiles files = .ok index) (verified : Schema.verify index files = .ok ())
    (groupless : ∀ f ∈ files, f.Groupless) (member : file ∈ files) (own : s ∈ file.services) :
    ∃ batches places, ofService ⟨options, index, file⟩ s = .ok batches ∧
      Selects ⟨options, index, file⟩ (s.methods.map fun m => Naming.fieldIdent m.name) s.methods places batches ∧
      (batches.map (·.accessor)).Nodup ∧ (batches.map loaderField).Nodup ∧
      ∀ b ∈ batches, ∀ m ∈ s.methods, b.accessor ≠ Naming.fieldIdent m.name := by
  have valid := Schema.verify_eq_ok.1 verified
  have sound : index.Sound := Index.sound_of_verified built valid groupless
  obtain ⟨batches, detected, places, selects⟩ :
      Gives (ofService ⟨options, index, file⟩ s) _ := gives_ofService sound ((valid file member).services s own)
  refine ⟨batches, places, detected, selects, selects.nodup_accessors, selects.nodup_loaderFields, ?_⟩
  intro b listed m declared same
  exact selects.accessor_not_mem b listed (List.mem_map.2 ⟨m, declared, same.symm⟩)

def pricesSchema : Schema.File :=
  ⟨"a.proto", "p", .proto3, [], [
    ⟨"Ids", [⟨"ids", "ids", 1, .string, .repeated, none, none, false⟩], [], [], [], false⟩,
    ⟨"Prices", [⟨"prices", "prices", 1, .double, .repeated, none, none, false⟩], [], [], [], false⟩,
    ⟨"Table", [⟨"prices", "prices", 1, .message, .repeated, some ".p.Table.PricesEntry", none, false⟩], [], [
      ⟨"PricesEntry", [
        ⟨"key", "key", 1, .string, .optional, none, none, false⟩,
        ⟨"value", "value", 2, .double, .optional, none, none, false⟩], [], [], [], true⟩], [], false⟩], [
    ⟨"Market", [
      ⟨"BatchGetPrices", ".p.Ids", ".p.Prices", false, false⟩,
      ⟨"BatchPrices", ".p.Ids", ".p.Prices", false, false⟩,
      ⟨"BulkPricesById", ".p.Ids", ".p.Table", false, false⟩,
      ⟨"BulkOffers", ".p.Ids", ".p.Prices", false, false⟩,
      ⟨"GetOffer", ".p.Ids", ".p.Prices", false, false⟩]⟩]⟩

theorem verify_pricesSchema :
    (Index.ofFiles [pricesSchema] >>= (Schema.verify · [pricesSchema])) = .ok () := by
  rw [Index.ofFiles]
  simp only [List.flatMap_cons, List.flatMap_nil, Schema.File.declarations_eq]
  rfl

theorem accessors_prices : ∀ s ∈ pricesSchema.services, (Index.ofFiles [pricesSchema] >>= fun index =>
    (ofService ⟨{}, index, pricesSchema⟩ s).map fun batches => batches.map fun b => (b.accessor, b.keyed)) =
      .ok [("get_price", false), ("get_prices_by_id", true)] := by
  rw [Index.ofFiles]
  simp only [List.flatMap_cons, List.flatMap_nil, Schema.File.declarations_eq]
  decide +kernel

theorem accessors_exact_prices : ∃ index, Index.ofFiles [pricesSchema] = .ok index ∧
    Schema.verify index [pricesSchema] = .ok () ∧ pricesSchema.Groupless ∧ ∀ s ∈ pricesSchema.services,
      ∃ batches places, ofService ⟨{}, index, pricesSchema⟩ s = .ok batches ∧
        Selects ⟨{}, index, pricesSchema⟩ (s.methods.map fun m => Naming.fieldIdent m.name) s.methods places batches ∧
        batches.map (fun b => (b.accessor, b.keyed)) = [("get_price", false), ("get_prices_by_id", true)] := by
  obtain ⟨index, built, verified⟩ := ok_of_bind verify_pricesSchema
  have groupless : pricesSchema.Groupless := by
    rw [Schema.File.Groupless, Schema.File.declarations_eq]
    decide
  refine ⟨index, built, verified, groupless, fun s own => ?_⟩
  obtain ⟨batches, places, detected, selects, -⟩ := accessors_exact {} built verified
    (List.forall_mem_singleton.2 groupless) (List.mem_singleton_self _) own
  have run := accessors_prices s own
  rw [built] at run
  change (ofService ⟨{}, index, pricesSchema⟩ s).map _ = _ at run
  rw [detected] at run
  exact ⟨batches, places, detected, selects, Except.ok.inj run⟩

end BatchMethod

end Target

end Protogen
