import Protogen.Proofs.Code.ModuleText
import Protogen.Proofs.Schema.Index

set_option autoImplicit false

namespace Protogen.Code

open Naming (Plain joined modulePath outputFile segments stem)

theorem Module.pathOf_outputFile (file : String) : Module.pathOf (outputFile file) = segments (stem file) := by
  rw [Module.pathOf, outputFile, String.toList_append, Text.stripEnd?_append]
  simp

theorem ne_empty_of_mem_segments {path s : String} (member : s ∈ segments path) : s ≠ "" := by
  obtain ⟨cs, listed, rfl⟩ := List.mem_map.1 member
  have some : cs ≠ [] := by simpa using (List.mem_filter.1 listed).2
  simpa using some

def ReachedAlong (file path : String) : Prop :=
  ∀ files index, Schema.Index.ofFiles files = .ok index → ∀ name e, index.find? name = some e → e.file = file →
    ∀ current, current ≠ file → ∀ root ending,
      index.path name current root ending = .ok (root ++ "::" ++ path ++ "::" ++ e.symbol ++ ending)

theorem reachedAlong_modulePath (file : String) : ReachedAlong file (modulePath file) := by
  intro files index built name e found own current other root ending
  obtain ⟨f, -, d, -, -, rfl⟩ := (Schema.Index.find?_ofFiles built).1 found
  rw [Schema.Declared.entry] at own
  subst own
  simp only [Schema.Index.path, Schema.Index.get, found, bind, Except.bind, Schema.Declared.entry,
    if_neg (Ne.symm other)]
  rfl

theorem moduleIndex?_eq_none {names : List String} : moduleIndex? names = none ↔ Module.ofFiles? names = none := by
  rw [moduleIndex?]
  cases Module.ofFiles? names <;> simp

-- The text of an index declares the tree of the files, if all parts of their paths can stand in it.
theorem exists_level {names : List String} {index : List Block} (generated : moduleIndex? names = some index) :
    ∃ level, Module.ofFiles? names = some level ∧
      ((∀ n ∈ names, ∀ s ∈ Module.pathOf n, Plain s) → outlines? (textOf index) = some (Module.outlines level)) := by
  obtain ⟨level, built⟩ : ∃ level, Module.ofFiles? names = some level := by
    rw [← Option.ne_none_iff_exists', ne_eq, ← moduleIndex?_eq_none, generated]
    nofun
  refine ⟨level, built, fun plain => Module.outlines?_moduleIndex (Module.sorted_ofFiles? ?_ built) built generated⟩
  exact fun n member s listed => ⟨ne_empty_of_mem_segments listed, plain n member s listed⟩

theorem pathsOf_outputFiles {names : List String} (some : ∀ n ∈ names, segments (stem n) ≠ []) :
    Module.pathsOf (names.map outputFile) = names.map fun n => segments (stem n) := by
  rw [Module.pathsOf, List.map_map]
  simp only [Function.comp_def, Module.pathOf_outputFile]
  refine List.filter_eq_self.2 (List.forall_mem_map.2 fun n member => ?_)
  simpa using some n member

theorem joined_declaredAt (file : String) :
    joined "::" (Module.declaredAt (segments (stem file))).1 = modulePath file := by
  rw [Module.declaredAt, modulePath]

/-- There is an index unless the path of one file leads through that of another, whatever the order of the files and
however often they come. Its modules in files are one for the parts of each path: that of the file, and the identifiers
that lead to it are the path by which code refers to the types of the schema file. The text declares these modules and no
others, if no part has a quotation mark, a backslash or a carriage return or is a single sign. -/
theorem declared_modules {names : List String} (parts : ∀ n ∈ names, segments (stem n) ≠ []) :
    (moduleIndex? (names.map outputFile) = none ↔
      ∃ a ∈ names, ∃ b ∈ names, Module.Clash (segments (stem a)) (segments (stem b))) ∧
    (∀ names' : List String, (∀ n, n ∈ names' ↔ n ∈ names) →
      moduleIndex? (names'.map outputFile) = moduleIndex? (names.map outputFile)) ∧
    ∀ index, moduleIndex? (names.map outputFile) = some index →
      ∃ level, Module.ofFiles? (names.map outputFile) = some level ∧
        (Outline.leavesOf (Module.outlines level)).Perm
          ((names.map fun n => segments (stem n)).dedup.map Module.declaredAt) ∧
        (∀ n ∈ names, ∃ leaf ∈ Outline.leavesOf (Module.outlines level),
          leaf.2 = joined "/" (segments (stem n)) ++ ".rs" ∧ joined "::" leaf.1 = modulePath n ∧
            ReachedAlong n (joined "::" leaf.1)) ∧
        ((∀ n ∈ names, ∀ s ∈ segments (stem n), Plain s) →
          outlines? (textOf index) = some (Module.outlines level)) := by
  have paths := pathsOf_outputFiles parts
  refine ⟨?_, fun names' same => ?_, fun index generated => ?_⟩
  · rw [moduleIndex?_eq_none, (Module.holds_ofFiles? _).1, paths]
    simp only [List.mem_map, exists_exists_and_eq_and]
  · refine moduleIndex?_congr fun file => ?_
    simp only [List.mem_map, same]
  · obtain ⟨level, built, read⟩ := exists_level generated
    have sorted : (Module.directory level).Sorted fun _ => True :=
      Module.sorted_ofFiles? (fun _ _ _ _ => trivial) built
    have holds := (Module.holds_ofFiles? _).2 level built
    rw [paths] at holds
    have leaves : (Outline.leavesOf (Module.outlines level)).Perm
        ((names.map fun n => segments (stem n)).dedup.map Module.declaredAt) := by
      rw [Module.leaves_outlines]
      exact (Module.perm_leavesOf holds sorted).map _
    refine ⟨level, built, leaves, fun n member => ?_, fun plain => read ?_⟩
    · have listed : Module.declaredAt (segments (stem n)) ∈ Outline.leavesOf (Module.outlines level) :=
        leaves.mem_iff.2 (List.mem_map_of_mem (List.mem_dedup.2 (List.mem_map_of_mem member)))
      have path := joined_declaredAt n
      exact ⟨_, listed, rfl, path, path ▸ reachedAlong_modulePath n⟩
    · refine List.forall_mem_map.2 fun n member => ?_
      rw [Module.pathOf_outputFile]
      exact plain n member

def shopNames : List String :=
  ["shop/cart.proto", "my-api/type.proto", "shop//cart.proto", "v1.proto"]

theorem declared_modules_shop : ∃ index outlines, moduleIndex? (shopNames.map outputFile) = some index ∧
    outlines? (textOf index) = some outlines ∧
    (Outline.leavesOf outlines).Perm
      [(["my_api", "type_"], "my-api/type.rs"), (["shop", "cart"], "shop/cart.rs"), (["v1"], "v1.rs")] ∧
    ReachedAlong "my-api/type.proto" "my_api::type_" := by
  have parts : ∀ n ∈ shopNames, segments (stem n) ≠ [] := by decide
  obtain ⟨-, -, declared⟩ := declared_modules parts
  have made : (moduleIndex? (shopNames.map outputFile)).isSome = true := by decide +kernel
  obtain ⟨index, generated⟩ := Option.isSome_iff_exists.1 made
  obtain ⟨level, -, leaves, reached, read⟩ := declared index generated
  have files : (shopNames.map fun n => segments (stem n)).dedup.map Module.declaredAt =
      [(["my_api", "type_"], "my-api/type.rs"), (["shop", "cart"], "shop/cart.rs"), (["v1"], "v1.rs")] := by
    decide +kernel
  obtain ⟨leaf, -, -, path, types⟩ := reached "my-api/type.proto" (by decide)
  have same : modulePath "my-api/type.proto" = "my_api::type_" := by decide
  rw [path, same] at types
  rw [files] at leaves
  exact ⟨index, _, generated, read (by decide), leaves, types⟩

def quotedName : String :=
  "a\"] pub mod b; #[path = \"c.proto"

theorem quoted_modules : segments (stem quotedName) = ["a\"] pub mod b; #[path = \"c"] ∧
    ((moduleIndex? [outputFile quotedName]).bind fun index => outlines? (textOf index)).map Outline.leavesOf =
      some [(["b"], "a"), (["a___pub_mod_b____path____c"], "c.rs")] := by
  decide +kernel

end Protogen.Code
