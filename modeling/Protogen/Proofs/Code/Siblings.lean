import Protogen.Proofs.Code.DeclaredModules

set_option autoImplicit false

namespace Protogen.Code

open Naming (Alike Ordinary Plain moduleIdent modulePath outputFile segments stem)
open Outline (Distinct)

namespace Outline

variable {level : List Outline}

theorem distinct_iff : Distinct level ↔
    (level.map ident).Nodup ∧ ∀ i place body, inner i place body ∈ level → Distinct body := by
  constructor
  · rintro ⟨idents, inside⟩
    exact ⟨idents, inside⟩
  · rintro ⟨idents, inside⟩
    exact ⟨idents, inside⟩

theorem distinct_nil : Distinct [] :=
  ⟨List.nodup_nil, nofun⟩

end Outline

namespace Module

def inside : Module → List Outline
  | file => []
  | directory children => outlines children

def Beside (paths : List (List String)) (s t : String) : Prop :=
  ∃ dirs, (∃ p ∈ paths, dirs ++ [s] <+: p) ∧ ∃ p ∈ paths, dirs ++ [t] <+: p

section Tree

variable {part : String → Prop} {level children : List (String × Module)} {m : Module} {paths : List (List String)}
  {dirs path path' : List String} {name s t : String}

theorem ident_outline : (m.outline name).ident = moduleIdent name := by
  cases m <;> rfl

theorem distinct_outlines_iff : Distinct (outlines children) ↔
    ((children.map Prod.fst).map moduleIdent).Nodup ∧ ∀ e ∈ children, Distinct e.2.inside := by
  rw [Outline.distinct_iff, outlines_eq, List.map_map, List.map_map]
  have idents : (Outline.ident ∘ fun e : String × Module => e.2.outline e.1) = moduleIdent ∘ Prod.fst :=
    funext fun _ => ident_outline
  rw [idents]
  refine and_congr_right' ⟨?_, ?_⟩
  · rintro inner ⟨name, _ | level⟩ member
    · exact Outline.distinct_nil
    · exact inner _ _ _ (List.mem_map.2 ⟨_, member, rfl⟩)
  · intro inner i place body listed
    obtain ⟨⟨name, _ | level⟩, member, same⟩ := List.mem_map.1 listed
    · cases same
    · cases same
      exact inner _ member

-- A directory has distinct modules if and only if each identifier in it is that of one name.
theorem distinct_inside_iff (sorted : m.Sorted part) : Distinct m.inside ↔
    ∀ dirs s t, (m.at? (dirs ++ [s])).isSome = true → (m.at? (dirs ++ [t])).isSome = true →
      moduleIdent s = moduleIdent t → s = t := by
  induction sorted with
  | ofFile =>
    refine iff_of_true Outline.distinct_nil fun dirs s t found => ?_
    cases dirs <;> cases found
  | @ofDirectory children keys parts inner ih =>
    have here {name : String} : ((directory children).at? [name]).isSome = true ↔ name ∈ children.map Prod.fst := by
      simp only [at?, Option.isSome_iff_exists, Option.bind_eq_some_iff, Option.some.injEq,
        exists_eq_right, lookup_eq_some_iff keys, List.mem_map, Prod.exists, exists_and_right, exists_eq_right]
    -- Two parts of one directory stand in this one, or behind one of its names.
    rw [inside, distinct_outlines_iff]
    constructor
    · rintro ⟨idents, below⟩ (_ | ⟨d, dirs⟩) s t found found' same
      · exact List.inj_on_of_nodup_map idents (here.1 found) (here.1 found') same
      · simp only [List.cons_append, at?] at found found'
        cases leads : children.lookup d with
        | none => simp [leads] at found
        | some m =>
          rw [leads, Option.bind_some] at found found'
          have member := mem_of_lookup leads
          exact (ih _ member).1 (below _ member) dirs s t found found' same
    · intro apart
      refine ⟨keys.nodup.map_on fun s found t found' => apart [] s t (here.2 found) (here.2 found'), fun e member => ?_⟩
      refine (ih e member).2 fun dirs s t found found' => apart (e.1 :: dirs) s t ?_ ?_
      · rwa [List.cons_append, at?, (lookup_eq_some_iff keys).2 member]
      · rwa [List.cons_append, at?, (lookup_eq_some_iff keys).2 member]

theorem isSome_at?_iff (holds : Holds level paths) :
    ((directory level).at? (dirs ++ [s])).isSome = true ↔ ∃ p ∈ paths, dirs ++ [s] <+: p := by
  have isFile := holds.file (dirs ++ [s])
  have isDirectory := holds.directory (dirs ++ [s])
  have some : dirs ++ [s] ≠ [] := List.append_ne_nil_of_right_ne_nil _ (List.cons_ne_nil _ _)
  rw [← Option.isSome_map (f := Module.isFile), ← fileAt?]
  simp only [some, false_or, Clash] at isDirectory
  cases found : fileAt? level (dirs ++ [s]) with
  | none =>
    simp only [found, reduceCtorEq, false_iff] at isFile isDirectory
    refine iff_of_false Bool.false_ne_true ?_
    rintro ⟨p, member, through⟩
    refine isDirectory ⟨p, member, through, ?_⟩
    rintro rfl
    exact isFile member
  | some isFile' =>
    refine iff_of_true rfl ?_
    cases isFile' with
    | true => exact ⟨_, isFile.1 found, List.prefix_rfl⟩
    | false =>
      obtain ⟨p, member, through, -⟩ := isDirectory.1 found
      exact ⟨p, member, through⟩

theorem distinct_outlines (holds : Holds level paths) (sorted : (directory level).Sorted part) :
    Distinct (outlines level) ↔ ∀ s t, Beside paths s t → s ≠ t → ¬Alike s t := by
  rw [← inside, distinct_inside_iff sorted]
  simp only [isSome_at?_iff holds, Naming.moduleIdent_eq_iff]
  constructor
  · rintro apart s t ⟨dirs, first, second⟩ other alike
    exact other (apart dirs s t first second alike)
  · intro apart dirs s t first second alike
    by_cases same : s = t
    next => exact same
    next => exact absurd alike (apart s t ⟨dirs, first, second⟩ same)

theorem eq_of_moduleIdents (apart : ∀ s t, Beside paths s t → s ≠ t → ¬Alike s t) (dirs : List String)
    (member : dirs ++ path ∈ paths) (member' : dirs ++ path' ∈ paths)
    (same : path.map moduleIdent = path'.map moduleIdent) : path = path' := by
  induction path generalizing dirs path' with
  | nil => exact (List.map_eq_nil_iff.1 same.symm).symm
  | cons s path ih =>
    cases path' with
    | nil => cases same
    | cons t path' =>
      obtain ⟨first, rest⟩ := List.cons.inj same
      have through {s : String} (path : List String) : dirs ++ [s] <+: dirs ++ s :: path := ⟨path, by simp⟩
      have beside : Beside paths s t := ⟨dirs, ⟨_, member, through path⟩, ⟨_, member', through path'⟩⟩
      have equal : s = t := by
        by_cases equal : s = t
        next => exact equal
        next => exact absurd (Naming.moduleIdent_eq_iff.1 first) (apart s t beside equal)
      subst equal
      rw [ih (dirs ++ [s]) (by simpa using member) (by simpa using member') rest]

end Tree

end Module

theorem moduleIdents_of_modulePath {a b : String} (same : modulePath a = modulePath b) :
    (segments (stem a)).map moduleIdent = (segments (stem b)).map moduleIdent := by
  have words (file : String) : ∀ n ∈ (segments (stem file)).map moduleIdent, ∀ c ∈ n.toList,
      Naming.isWordChar c = true :=
    List.forall_mem_map.2 fun _ _ => Naming.moduleIdent_word
  have nonempty (file : String) : "" ∉ (segments (stem file)).map moduleIdent := by
    intro member
    obtain ⟨s, listed, empty⟩ := List.mem_map.1 member
    exact Naming.moduleIdent_ne_empty (ne_empty_of_mem_segments listed) empty
  exact Naming.joined_injective (words a) (words b) (nonempty a) (nonempty b) same

/-- The modules beside each other have distinct identifiers if and only if no two parts beside each other are alike, as is
the case where all of them are ordinary. Then schema files share the path of a module only where all parts of their
paths are the same. -/
theorem distinct_siblings {names : List String} {index : List Block} (generated : moduleIndex? names = some index) :
    ∃ level, Module.ofFiles? names = some level ∧
      (Distinct (Module.outlines level) ↔
        ∀ s t, Module.Beside (Module.pathsOf names) s t → s ≠ t → ¬Alike s t) ∧
      ((∀ n ∈ names, ∀ s ∈ Module.pathOf n, Ordinary s) → Distinct (Module.outlines level)) ∧
      (Distinct (Module.outlines level) → ∀ a b, outputFile a ∈ names → outputFile b ∈ names →
        modulePath a = modulePath b → segments (stem a) = segments (stem b)) ∧
      ((∀ n ∈ names, ∀ s ∈ Module.pathOf n, Plain s) → outlines? (textOf index) = some (Module.outlines level)) := by
  obtain ⟨level, built, read⟩ := exists_level generated
  have sorted : (Module.directory level).Sorted fun _ => True :=
    Module.sorted_ofFiles? (fun _ _ _ _ => trivial) built
  have apart := Module.distinct_outlines ((Module.holds_ofFiles? names).2 level built) sorted
  refine ⟨level, built, apart, fun ordinary => apart.2 ?_, fun distinct a b member member' same => ?_, read⟩
  · have known {dirs : List String} {s : String} : (∃ p ∈ Module.pathsOf names, dirs ++ [s] <+: p) → Ordinary s := by
      rintro ⟨p, listed, through⟩
      obtain ⟨-, n, member, rfl⟩ := Module.mem_pathsOf.1 listed
      exact ordinary n member s (through.subset (by simp))
    rintro s t ⟨dirs, first, second⟩ other alike
    exact other ((Naming.alike_iff_of_ordinary (known first) (known second)).1 alike)
  · have idents := moduleIdents_of_modulePath same
    by_cases none : segments (stem a) = []
    next =>
      rw [none, List.map_nil, eq_comm, List.map_eq_nil_iff] at idents
      rw [none, idents]
    next =>
      have none' : segments (stem b) ≠ [] := by
        intro none'
        rw [none', List.map_nil, List.map_eq_nil_iff] at idents
        exact none idents
      have own := Module.mem_pathsOf.2 ⟨none, _, member, Module.pathOf_outputFile a⟩
      have own' := Module.mem_pathsOf.2 ⟨none', _, member', Module.pathOf_outputFile b⟩
      exact Module.eq_of_moduleIdents (apart.1 distinct) [] own own' idents

def ordinaryNames : List String :=
  ["google/protobuf/timestamp.rs", "shop/cart_v2.rs", "shop/type.rs"]

theorem distinct_siblings_ordinary : ∃ index outlines, moduleIndex? ordinaryNames = some index ∧
    outlines? (textOf index) = some outlines ∧ Distinct outlines ∧
    modulePath "shop/type.proto" ≠ modulePath "shop/cart_v2.proto" := by
  have made : (moduleIndex? ordinaryNames).isSome = true := by decide +kernel
  obtain ⟨index, generated⟩ := Option.isSome_iff_exists.1 made
  obtain ⟨level, -, -, ordinary, paths, read⟩ := distinct_siblings generated
  have distinct := ordinary (by decide +kernel)
  refine ⟨index, _, generated, read (by decide +kernel), distinct, fun same => ?_⟩
  have segments := paths distinct _ _ (by decide +kernel) (by decide +kernel) same
  exact absurd segments (by decide +kernel)

def meetingNames : List String :=
  ["my-api.rs", "my_api.rs"]

theorem siblings_meet : ∃ index outlines, moduleIndex? meetingNames = some index ∧
    outlines? (textOf index) = some outlines ∧ ¬Distinct outlines ∧
    modulePath "my-api.proto" = modulePath "my_api.proto" := by
  have twice : ((moduleIndex? meetingNames).bind fun index => outlines? (textOf index)).map
      (·.map Outline.ident) = some ["my_api", "my_api"] := by decide +kernel
  obtain ⟨outlines, read, idents⟩ := Option.map_eq_some_iff.1 twice
  obtain ⟨index, generated, read⟩ := Option.bind_eq_some_iff.1 read
  refine ⟨index, outlines, generated, read, fun distinct => ?_, by decide +kernel⟩
  have apart := (Outline.distinct_iff.1 distinct).1
  rw [idents] at apart
  exact absurd apart (by decide)

end Protogen.Code
