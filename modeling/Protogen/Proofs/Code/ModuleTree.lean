import Mathlib.Data.List.Dedup
import Mathlib.Data.List.Induction
import Protogen.Proofs.Code.ModuleIndex

set_option autoImplicit false

namespace Protogen.Code.Module

def isFile : Module → Bool
  | file => true
  | directory _ => false

def at? : Module → List String → Option Module
  | m, [] => some m
  | file, _ :: _ => none
  | directory children, name :: path => (children.lookup name).bind fun m => at? m path

def fileAt? (level : List (String × Module)) (path : List String) : Option Bool :=
  ((directory level).at? path).map isFile

section Insertion

variable {level level' children : List (String × Module)} {name leaf d : String} {path dirs : List String} {m : Module}

theorem at?_nil : m.at? [] = some m := by
  cases m <;> rfl

theorem fileAt?_nil : fileAt? level [] = some false :=
  rfl

theorem fileAt?_empty (some : path ≠ []) : fileAt? [] path = none := by
  cases path with
  | nil => exact absurd rfl some
  | cons name path => rfl

theorem fileAt?_cons : fileAt? level (name :: path) = (level.lookup name).bind fun m => (m.at? path).map isFile := by
  rw [fileAt?, at?, Option.map_bind]
  rfl

theorem fileAt?_insertKey : fileAt? (insertKey d m level) (name :: path) =
    if d = name then (m.at? path).map isFile else fileAt? level (name :: path) := by
  rw [fileAt?_cons, fileAt?_cons, lookup_insertKey]
  split <;> rfl

theorem eq_file_of_asFile? {before : Option Module} (changed : asFile? before = some m) : m = file := by
  rcases before with _ | _ | _ <;> cases changed <;> rfl

-- A file is added unless its path goes through a file, or is that of a directory.
theorem insertPath?_eq_none : insertPath? leaf dirs level = none ↔
    (∃ front, front <+: dirs ∧ fileAt? level front = some true) ∨ fileAt? level (dirs ++ [leaf]) = some false := by
  induction dirs generalizing level with
  | nil =>
    have none : ¬∃ front, front <+: [] ∧ fileAt? level front = some true := by
      rintro ⟨front, empty, isFile⟩
      rw [List.prefix_nil.1 empty, fileAt?_nil] at isFile
      cases isFile
    rw [insertPath?_nil, alter?, List.nil_append, fileAt?_cons, or_iff_right none]
    rcases level.lookup leaf with _ | _ | children <;> simp [asFile?, at?_nil, isFile]
  | cons d dirs ih =>
    have through : (∃ front, front <+: d :: dirs ∧ fileAt? level front = some true) ↔
        ∃ front, front <+: dirs ∧ fileAt? level (d :: front) = some true := by
      constructor
      · rintro ⟨_ | ⟨d', front⟩, before, isFile⟩
        · cases isFile
        · obtain ⟨same, before⟩ := List.cons_prefix_cons.1 before
          exact ⟨front, before, same ▸ isFile⟩
      · rintro ⟨front, before, isFile⟩
        exact ⟨d :: front, List.cons_prefix_cons.2 ⟨rfl, before⟩, isFile⟩
    simp only [insertPath?_cons, alter?, Option.map_eq_none_iff, through, List.cons_append, fileAt?_cons]
    rcases level.lookup d with _ | _ | children
    · -- A directory that is made for the file has nothing in its way.
      have free : insertPath? leaf dirs [] ≠ none := by
        rw [ne_eq, ih, not_or]
        refine ⟨?_, by simp [fileAt?_empty]⟩
        rintro ⟨_ | ⟨_, _⟩, -, isFile⟩ <;> cases isFile
      simpa [asDirectory?] using free
    · refine iff_of_true rfl (.inl ⟨[], List.nil_prefix, rfl⟩)
    · simp only [asDirectory?, Option.map_eq_none_iff, ih]
      rfl

-- Behind the file that is added stand the directories on its way, and nothing else changes.
theorem fileAt?_insertPath? (added : insertPath? leaf dirs level = some level') :
    fileAt? level' path = if path = dirs ++ [leaf] then some true else if path <+: dirs then some false
      else fileAt? level path := by
  induction dirs generalizing level level' path with
  | nil =>
    rw [insertPath?_nil, alter?, Option.map_eq_some_iff] at added
    obtain ⟨m, changed, rfl⟩ := added
    cases path with
    | nil => simp [fileAt?_nil]
    | cons name path =>
      rw [fileAt?_insertKey, fileAt?_cons]
      by_cases same : leaf = name
      next =>
        subst same
        generalize level.lookup leaf = before at changed ⊢
        rcases before with _ | _ | children <;> cases changed <;> cases path <;> simp [at?, isFile]
      next => simp [same, Ne.symm same]
  | cons d dirs ih =>
    rw [insertPath?_cons, alter?, Option.map_eq_some_iff] at added
    obtain ⟨m, changed, rfl⟩ := added
    cases path with
    | nil => simp [fileAt?_nil]
    | cons name path =>
      rw [fileAt?_insertKey, fileAt?_cons]
      by_cases same : d = name
      next =>
        subst same
        generalize level.lookup d = before at changed ⊢
        rcases before with _ | _ | children
        · obtain ⟨children, added, rfl⟩ := Option.map_eq_some_iff.1 changed
          have inside : fileAt? children path = _ := ih added
          rw [fileAt?] at inside
          cases path <;> simp [inside, fileAt?_empty, List.cons_prefix_cons]
        · cases changed
        · obtain ⟨children', added, rfl⟩ := Option.map_eq_some_iff.1 changed
          have inside : fileAt? children' path = _ := ih added
          rw [fileAt?] at inside
          simp [inside, fileAt?, List.cons_prefix_cons]
      next => simp [same, Ne.symm same, List.cons_prefix_cons]

end Insertion

def Clash (p q : List String) : Prop :=
  p <+: q ∧ p ≠ q

instance (p q : List String) : Decidable (Clash p q) :=
  inferInstanceAs (Decidable (_ ∧ _))

/-- The level has the files at these paths, in the directories that they go through, and nothing else. -/
structure Holds (level : List (String × Module)) (paths : List (List String)) : Prop where
  file : ∀ path, fileAt? level path = some true ↔ path ∈ paths
  directory : ∀ path, fileAt? level path = some false ↔ path = [] ∨ ∃ p ∈ paths, Clash path p

section Runs

variable {level level' : List (String × Module)} {paths : List (List String)} {leaf : String} {dirs : List String}

theorem holds_nil : Holds [] [] := by
  constructor <;> intro path <;> cases path <;> simp [fileAt?, at?, isFile]

theorem concat_not_within : ¬dirs ++ [leaf] <+: dirs := by
  intro before
  have short := before.length_le
  rw [List.length_append, List.length_singleton] at short
  omega

theorem clash_concat {front : List String} : Clash front (dirs ++ [leaf]) ↔ front <+: dirs := by
  rw [Clash, List.prefix_concat_iff]
  constructor
  · rintro ⟨same | before, other⟩
    · exact absurd same other
    · exact before
  · intro before
    refine ⟨.inr before, ?_⟩
    rintro rfl
    exact concat_not_within before

namespace Holds

theorem insertPath?_eq_none (holds : Holds level paths) :
    insertPath? leaf dirs level = none ↔ ∃ p ∈ paths, Clash p (dirs ++ [leaf]) ∨ Clash (dirs ++ [leaf]) p := by
  have some : dirs ++ [leaf] ≠ [] := List.append_ne_nil_of_right_ne_nil _ (List.cons_ne_nil _ _)
  simp only [Module.insertPath?_eq_none, holds.file, holds.directory, clash_concat, some, false_or, and_or_left,
    exists_or, and_comm]

theorem insertPath? (holds : Holds level paths) (added : insertPath? leaf dirs level = some level') :
    Holds level' ((dirs ++ [leaf]) :: paths) := by
  -- What is added leads through no other path, and none through it, so no path changes what it leads to.
  have free : ¬∃ p ∈ paths, Clash p (dirs ++ [leaf]) ∨ Clash (dirs ++ [leaf]) p := by
    rw [← holds.insertPath?_eq_none, added]
    nofun
  constructor
  · intro path
    rw [fileAt?_insertPath? added, List.mem_cons]
    by_cases own : path = dirs ++ [leaf]
    next => simp [own]
    next =>
      by_cases before : path <+: dirs
      next =>
        have other : path ∉ paths := fun member => free ⟨path, member, .inl (clash_concat.2 before)⟩
        simp [own, before, other]
      next => simp [own, before, holds.file]
  · intro path
    simp only [fileAt?_insertPath? added, List.mem_cons, exists_eq_or_imp, clash_concat]
    by_cases own : path = dirs ++ [leaf]
    next =>
      subst own
      have last : ¬∃ p ∈ paths, Clash (dirs ++ [leaf]) p := fun ⟨p, member, clash⟩ => free ⟨p, member, .inr clash⟩
      simp [concat_not_within, last]
    next =>
      by_cases before : path <+: dirs
      next => simp [own, before]
      next => simp [own, before, holds.directory]

end Holds

theorem Holds.congr {paths' : List (List String)} (holds : Holds level paths) (same : ∀ p, p ∈ paths ↔ p ∈ paths') :
    Holds level paths' :=
  ⟨fun path => by rw [holds.file, same], fun path => by simp only [holds.directory, same]⟩

theorem insert?_eq {name : String} (some : pathOf name ≠ []) :
    ∃ dirs leaf, pathOf name = dirs ++ [leaf] ∧ ∀ level, insert? level name = insertPath? leaf dirs level := by
  have path := List.dropLast_append_getLast some
  refine ⟨_, _, path.symm, fun level => ?_⟩
  rw [insert?, List.getLast?_eq_some_getLast some]

theorem insert?_eq_self {name : String} (none : pathOf name = []) : insert? level name = some level := by
  rw [insert?, none]
  rfl

theorem ofFiles?_concat (names : List String) (name : String) :
    ofFiles? (names ++ [name]) = (ofFiles? names).bind (insert? · name) := by
  rw [ofFiles?, List.foldlM_append, ofFiles?]
  simp only [List.foldlM_cons, List.foldlM_nil, bind_pure]
  rfl

def pathsOf (names : List String) : List (List String) :=
  (names.map pathOf).filter (· ≠ [])

theorem mem_pathsOf {names : List String} {p : List String} :
    p ∈ pathsOf names ↔ p ≠ [] ∧ ∃ name ∈ names, pathOf name = p := by
  rw [pathsOf, List.mem_filter, List.mem_map, decide_eq_true_iff, and_comm]

theorem pathsOf_concat (names : List String) (name : String) :
    pathsOf (names ++ [name]) = pathsOf names ++ if pathOf name = [] then [] else [pathOf name] := by
  rw [pathsOf, List.map_append, List.filter_append, ← pathsOf]
  by_cases none : pathOf name = [] <;> simp [none]

-- The files make a tree, that of their paths, unless one path leads through another one.
theorem holds_ofFiles? (names : List String) :
    (ofFiles? names = none ↔ ∃ p ∈ pathsOf names, ∃ q ∈ pathsOf names, Clash p q) ∧
      ∀ level, ofFiles? names = some level → Holds level (pathsOf names) := by
  induction names using List.reverseRecOn with
  | nil =>
    refine ⟨by simp [ofFiles?, pathsOf], fun level built => ?_⟩
    cases built
    exact holds_nil
  | append_singleton names name ih =>
    rw [ofFiles?_concat, pathsOf_concat]
    by_cases none : pathOf name = []
    next => simpa [none, insert?_eq_self none] using ih
    next =>
      obtain ⟨clash, holds⟩ := ih
      obtain ⟨dirs, leaf, path, insert⟩ := insert?_eq none
      rw [if_neg none, path]
      simp only [insert]
      cases built : ofFiles? names with
      | none =>
        obtain ⟨p, member, q, member', through⟩ := clash.1 built
        refine ⟨iff_of_true rfl ⟨p, List.mem_append_left _ member, q, List.mem_append_left _ member', through⟩, ?_⟩
        intro level built
        cases built
      | some level =>
        have holds := holds level built
        rw [Option.bind_some]
        constructor
        · rw [holds.insertPath?_eq_none]
          -- The paths before do not clash, and no path does with itself.
          have apart : ¬∃ p ∈ pathsOf names, ∃ q ∈ pathsOf names, Clash p q := by
            rw [← clash, built]
            exact Option.some_ne_none level
          have self (p : List String) : ¬Clash p p := fun clash => clash.2 rfl
          simp only [List.mem_append, List.mem_singleton]
          grind
        · intro level' added
          exact (holds.insertPath? added).congr fun p => by simp [or_comm]

end Runs

-- Sorted levels, and the list of all files.

inductive Sorted (part : String → Prop) : Module → Prop
  | ofFile : Sorted part file
  | ofDirectory {children : List (String × Module)} (keys : KeysSorted children) (parts : ∀ e ∈ children, part e.1)
      (inner : ∀ e ∈ children, Sorted part e.2) : Sorted part (directory children)

mutual

def leaves : Module → List (List String)
  | file => [[]]
  | directory children => leavesOf children

def leavesOf : List (String × Module) → List (List String)
  | [] => []
  | (name, m) :: rest => m.leaves.map (name :: ·) ++ leavesOf rest

end

section Leaves

variable {part : String → Prop} {level level' : List (String × Module)} {m : Module} {path dirs : List String}
  {name leaf : String}

theorem mem_of_lookup (found : level.lookup name = some m) : (name, m) ∈ level := by
  rw [lookup_eq_find?, Option.map_eq_some_iff] at found
  obtain ⟨⟨key, _⟩, found, rfl⟩ := found
  have here : key = name := eq_of_beq (List.find?_some found :)
  exact here ▸ List.mem_of_find?_eq_some found

theorem lookup_eq_some_iff (keys : KeysSorted level) : level.lookup name = some m ↔ (name, m) ∈ level := by
  rw [lookup_eq_find?]
  exact Dict.get?_eq_some_iff (d := ⟨level, keys⟩)

theorem sorted_directory_iff : (directory level).Sorted part ↔
    KeysSorted level ∧ (∀ e ∈ level, part e.1) ∧ ∀ e ∈ level, e.2.Sorted part := by
  constructor
  · rintro ⟨⟩
    exact ⟨‹_›, ‹_›, ‹_›⟩
  · rintro ⟨keys, parts, inner⟩
    exact .ofDirectory keys parts inner

theorem sorted_empty : (directory []).Sorted part :=
  .ofDirectory .nil nofun nofun

theorem sorted_insertKey (sorted : (directory level).Sorted part) (named : part name) (inner : m.Sorted part) :
    (directory (insertKey name m level)).Sorted part := by
  obtain ⟨keys, parts, others⟩ := sorted_directory_iff.1 sorted
  have all : ∀ e ∈ insertKey name m level, part e.1 ∧ e.2.Sorted part := by
    intro e member
    rcases mem_insertKey member with rfl | member
    · exact ⟨named, inner⟩
    · exact ⟨parts e member, others e member⟩
  exact .ofDirectory (keysSorted_insertKey name m keys) (fun e member => (all e member).1) fun e member =>
    (all e member).2

theorem sorted_insertPath? (sorted : (directory level).Sorted part) (parts : ∀ s ∈ dirs ++ [leaf], part s)
    (added : insertPath? leaf dirs level = some level') : (directory level').Sorted part := by
  induction dirs generalizing level level' with
  | nil =>
    rw [insertPath?_nil, alter?, Option.map_eq_some_iff] at added
    obtain ⟨m, changed, rfl⟩ := added
    rw [eq_file_of_asFile? changed]
    exact sorted_insertKey sorted (parts leaf (List.mem_singleton_self _)) .ofFile
  | cons d dirs ih =>
    rw [List.cons_append, List.forall_mem_cons] at parts
    rw [insertPath?_cons, alter?, Option.map_eq_some_iff] at added
    obtain ⟨m, changed, rfl⟩ := added
    refine sorted_insertKey sorted parts.1 ?_
    cases found : level.lookup d with
    | none =>
      rw [found] at changed
      obtain ⟨children, added, rfl⟩ := Option.map_eq_some_iff.1 changed
      exact ih sorted_empty parts.2 added
    | some m =>
      rw [found] at changed
      cases m with
      | file => cases changed
      | directory children =>
        obtain ⟨children', added, rfl⟩ := Option.map_eq_some_iff.1 changed
        exact ih ((sorted_directory_iff.1 sorted).2.2 _ (mem_of_lookup found)) parts.2 added

theorem sorted_ofFiles? {names : List String} (parts : ∀ name ∈ names, ∀ s ∈ pathOf name, part s)
    (built : ofFiles? names = some level) : (directory level).Sorted part := by
  induction names using List.reverseRecOn generalizing level with
  | nil =>
    cases built
    exact sorted_empty
  | append_singleton names name ih =>
    rw [ofFiles?_concat, Option.bind_eq_some_iff] at built
    obtain ⟨before, built, added⟩ := built
    have sorted := ih (fun name member => parts name (List.mem_append_left _ member)) built
    by_cases some : pathOf name = []
    next =>
      rw [insert?_eq_self some] at added
      cases added
      exact sorted
    next =>
      obtain ⟨dirs, leaf, path, insert⟩ := insert?_eq some
      rw [insert] at added
      exact sorted_insertPath? sorted (path ▸ parts name (by simp)) added

theorem leavesOf_eq (level : List (String × Module)) :
    leavesOf level = level.flatMap fun e => e.2.leaves.map (e.1 :: ·) := by
  induction level with
  | nil => rfl
  | cons e level ih => rw [leavesOf, List.flatMap_cons, ih]

theorem mem_leaves (sorted : m.Sorted part) : path ∈ m.leaves ↔ m.at? path = some file := by
  induction sorted generalizing path with
  | ofFile => cases path <;> simp [leaves, at?]
  | @ofDirectory children keys _ inner ih =>
    rw [leaves, leavesOf_eq]
    cases path with
    | nil => simp [at?]
    | cons name path =>
      simp only [at?, Option.bind_eq_some_iff, lookup_eq_some_iff keys, List.mem_flatMap, List.mem_map,
        List.cons.injEq, Prod.exists]
      constructor
      · rintro ⟨_, m, member, _, leaf, rfl, rfl⟩
        exact ⟨m, member, (ih _ member).1 leaf⟩
      · rintro ⟨m, member, leads⟩
        exact ⟨name, m, member, path, (ih _ member).2 leads, rfl, rfl⟩

theorem nodup_leaves (sorted : m.Sorted part) : m.leaves.Nodup := by
  induction sorted with
  | ofFile => exact List.nodup_singleton _
  | @ofDirectory children keys _ inner ih =>
    rw [leaves, leavesOf_eq, List.nodup_flatMap]
    refine ⟨fun e member => (ih e member).map fun _ _ same => (List.cons.inj same).2, ?_⟩
    refine (List.pairwise_map.1 keys.nodup).imp fun other => ?_
    simp only [List.disjoint_left, List.mem_map, Function.onFun]
    rintro _ ⟨_, -, rfl⟩ ⟨_, -, same⟩
    exact other (List.cons.inj same).1.symm

theorem perm_leavesOf {paths : List (List String)} (holds : Holds level paths)
    (sorted : (directory level).Sorted part) : (leavesOf level).Perm paths.dedup := by
  refine (List.perm_ext_iff_of_nodup (nodup_leaves sorted) (List.nodup_dedup _)).2 fun path => ?_
  rw [mem_leaves sorted, List.mem_dedup, ← holds.file, fileAt?, Option.map_eq_some_iff]
  constructor
  · intro leads
    exact ⟨file, leads, rfl⟩
  · rintro ⟨_ | _, leads, isFile⟩
    · exact leads
    · cases isFile

end Leaves

end Protogen.Code.Module
