import Protogen.Proofs.Code.DeclaredModules
import Protogen.Proofs.Compile.Emission

set_option autoImplicit false

namespace Protogen

namespace Naming

variable {a b : String}

theorem toList_outputFile {cs : List Char} (name : a.toList = cs ++ ".proto".toList) :
    (outputFile a).toList = cs ++ ".rs".toList := by
  rw [outputFile, stem, name, Text.stripEnd?_append, String.toList_append]
  simp

theorem outputFile_eq_iff (schema : ".proto".toList <:+ a.toList) (schema' : ".proto".toList <:+ b.toList) :
    outputFile a = outputFile b ↔ a = b := by
  obtain ⟨cs, name⟩ := schema
  obtain ⟨cs', name'⟩ := schema'
  rw [← String.toList_inj, toList_outputFile name.symm, toList_outputFile name'.symm, List.append_left_inj,
    ← String.toList_inj, ← name, ← name', List.append_left_inj]

end Naming

namespace Compile

open Code (Module moduleIndex?)
open Naming (outputFile outputFile_eq_iff segments stem)
open Schema (Index)

variable {descriptors : List Descriptor.File} {requested : List String} {parameter : String}
  {generated outputs : List OutputFile}

def emitted (descriptors : List Descriptor.File) (requested : List String) : List String :=
  (descriptors.filter fun d => (filesToEmit descriptors requested).contains (fileName d)).map fileName

theorem mem_emitted {name : String} : name ∈ emitted descriptors requested ↔
    name ∈ descriptors.map fileName ∧ name ∈ filesToEmit descriptors requested := by
  simp only [emitted, List.mem_map, List.mem_filter, List.contains_iff_mem]
  constructor
  · rintro ⟨d, ⟨member, emitted⟩, rfl⟩
    exact ⟨⟨d, member, rfl⟩, emitted⟩
  · rintro ⟨⟨d, member, rfl⟩, emitted⟩
    exact ⟨d, ⟨member, emitted⟩, rfl⟩

-- Where no file depends on another one, code is generated for those that are asked for.
theorem emitted_of_independent (independent : ∀ d ∈ descriptors, d.dependencies = []) :
    emitted descriptors requested = (descriptors.map fileName).filter (requested.contains ·) := by
  have none (name : String) : dependencies descriptors name = [] := by
    rw [dependencies]
    cases found : descriptors.find? (fileName · == name) with
    | none => rfl
    | some d => exact independent d (List.mem_of_find?_eq_some found)
  have asked : filesToEmit descriptors requested = requested := by simp [filesToEmit, none]
  rw [emitted, asked, List.filter_map]
  rfl

theorem nodup_emitted (distinct : (descriptors.map fileName).Nodup) : (emitted descriptors requested).Nodup :=
  distinct.sublist (List.filter_sublist.map fileName)

/-- The path of a file that code is generated for leads through that of another one. -/
def PathsClash (files : List String) : Prop :=
  ∃ a ∈ files, ∃ b ∈ files, segments (stem a) ≠ [] ∧ Module.Clash (segments (stem a)) (segments (stem b))

theorem moduleIndex?_outputFiles (files : List String) :
    moduleIndex? (files.map outputFile) = none ↔ PathsClash files := by
  rw [Code.moduleIndex?_eq_none, (Module.holds_ofFiles? _).1, PathsClash]
  simp only [Module.mem_pathsOf, List.mem_map, exists_exists_and_eq_and, Module.pathOf_outputFile]
  constructor
  · rintro ⟨p, ⟨some, a, member, rfl⟩, q, ⟨-, b, member', rfl⟩, clash⟩
    exact ⟨a, member, b, member', some, clash⟩
  · rintro ⟨a, member, b, member', some, clash⟩
    -- A path behind one that has parts has parts itself.
    have some' : segments (stem b) ≠ [] := fun none => some (List.prefix_nil.1 (none ▸ clash.1))
    exact ⟨_, ⟨some, a, member, rfl⟩, _, ⟨some', b, member', rfl⟩, clash⟩

theorem names_of_renders {options : Options} {index : Index} {ds : List Descriptor.File}
    (renders : List.Forall₂ (Renders options index) ds generated) :
    generated.map (·.name) = (ds.map fileName).map outputFile := by
  induction renders with
  | nil => rfl
  | cons first _ ih => rw [List.map_cons, ih, first.1, List.map_cons, List.map_cons]

-- The generated files of a run are named in the order of their descriptors, and at most the index is behind them.
theorem exists_generated (success : run descriptors requested parameter = .ok outputs) :
    ∃ options files index generated, Options.parse parameter = .ok options ∧
      indexed descriptors = .ok (files, index) ∧
      List.Forall₂ (Renders options index)
        (descriptors.filter fun d => (filesToEmit descriptors requested).contains (fileName d)) generated ∧
      generated.map (·.name) = (emitted descriptors requested).map outputFile ∧ outputs = withModules generated := by
  obtain ⟨options, files, index, generated, parsed, built, -, each, rfl⟩ := run_eq_ok.1 success
  have renders := forall₂_renders _ (indexed_eq_ok.1 built).1 each
  exact ⟨options, files, index, generated, parsed, built, renders, names_of_renders renders, rfl⟩

theorem nodup_outputFiles (distinct : (descriptors.map fileName).Nodup)
    (schemas : ∀ d ∈ descriptors, ".proto".toList <:+ (fileName d).toList) :
    ((emitted descriptors requested).map outputFile).Nodup := by
  have schema {name : String} (listed : name ∈ emitted descriptors requested) : ".proto".toList <:+ name.toList := by
    obtain ⟨d, member, rfl⟩ := List.mem_map.1 (mem_emitted.1 listed).1
    exact schemas d member
  refine (nodup_emitted distinct).map_on fun a listed b listed' same => ?_
  exact (outputFile_eq_iff (schema listed) (schema listed')).1 same

theorem mem_outputFiles_iff (requested : List String)
    (schemas : ∀ d ∈ descriptors, ".proto".toList <:+ (fileName d).toList) :
    "mod.rs" ∈ (emitted descriptors requested).map outputFile ↔ "mod.proto" ∈ emitted descriptors requested := by
  have index : outputFile "mod.proto" = "mod.rs" := by decide
  constructor
  · intro member
    obtain ⟨name, listed, same⟩ := List.mem_map.1 member
    obtain ⟨d, given, rfl⟩ := List.mem_map.1 (mem_emitted.1 listed).1
    rw [← index, outputFile_eq_iff (schemas d given) (by decide)] at same
    rwa [same] at listed
  · intro listed
    exact index ▸ List.mem_map_of_mem listed

/-- Code for different files of schemas is put under different names. The only name that may be there twice is that of
the index, and is if code for `mod.proto` is generated and there is an index, which is so unless the path of one file
leads through that of another. The index stands behind the code that has its name. -/
theorem distinct_outputs (distinct : (descriptors.map fileName).Nodup)
    (schemas : ∀ d ∈ descriptors, ".proto".toList <:+ (fileName d).toList)
    (success : run descriptors requested parameter = .ok outputs) :
    (∀ name, name ≠ "mod.rs" → (outputs.map (·.name)).count name ≤ 1) ∧
    ((outputs.map (·.name)).Nodup ↔
      ("mod.proto" ∈ emitted descriptors requested → PathsClash (emitted descriptors requested))) ∧
    (¬(outputs.map (·.name)).Nodup → ∃ options files index generated modules,
      Options.parse parameter = .ok options ∧ indexed descriptors = .ok (files, index) ∧
        (∃ d ∈ descriptors, ∃ output ∈ generated, fileName d = "mod.proto" ∧ Renders options index d output) ∧
          outputs = generated ++ [⟨"mod.rs", Code.textOf modules⟩]) := by
  obtain ⟨options, files, index, generated, parsed, built, renders, names, rfl⟩ := exists_generated success
  have apart : (generated.map (·.name)).Nodup := names ▸ nodup_outputFiles distinct schemas
  have clash := moduleIndex?_outputFiles (emitted descriptors requested)
  rw [← names] at clash
  have own := mem_outputFiles_iff requested schemas
  rw [← names] at own
  rw [withModules]
  split
  next modules found =>
    have free : ¬PathsClash (emitted descriptors requested) := by
      rw [← clash, found]
      exact Option.some_ne_none modules
    have twice : ((generated ++ [(⟨"mod.rs", Code.textOf modules⟩ : OutputFile)]).map (·.name)).Nodup ↔
        "mod.proto" ∉ emitted descriptors requested := by
      rw [List.map_append, List.map_singleton, ← List.concat_eq_append, List.nodup_concat, own]
      simp [apart]
    refine ⟨fun name other => ?_, by rw [twice]; tauto, fun same => ?_⟩
    · rw [List.map_append, List.count_append, List.map_singleton, List.count_singleton,
        if_neg (by simpa using other.symm)]
      exact List.nodup_iff_count_le_one.1 apart name
    · rw [twice, not_not] at same
      obtain ⟨d, kept, called⟩ := List.mem_map.1 same
      obtain ⟨output, listed, rendered⟩ := exists_of_forall₂ renders.flip d kept
      exact ⟨options, files, index, generated, modules, parsed, built,
        ⟨d, List.mem_of_mem_filter kept, output, listed, called, rendered⟩, rfl⟩
  next none =>
    refine ⟨fun name _ => List.nodup_iff_count_le_one.1 apart name, ?_, fun same => absurd apart same⟩
    exact iff_of_true apart fun _ => clash.1 none

def modFile : Descriptor.File where
  name := some "mod.proto"
  package := some "shades"
  grammar := some "proto3"
  enums := [{ name := some "Shade", values := [{ name := some "DARK", number := some 0 }] }]

def modSchemas : List Schema.File := [
  { name := "palette.proto", package := "palette", grammar := .proto3
    enums := [⟨"Color", [⟨"RED", 0⟩]⟩], messages := [], services := [] },
  { name := "mod.proto", package := "shades", grammar := .proto3
    enums := [⟨"Shade", [⟨"DARK", 0⟩]⟩], messages := [], services := [] }]

theorem verify_modSchemas : (Index.ofFiles modSchemas >>= (Schema.verify · modSchemas)) = .ok () := by
  simp only [Index.ofFiles, modSchemas, List.flatMap_cons, List.flatMap_nil, Schema.File.declarations_eq]
  rfl

theorem exists_run_mod (requested : List String) :
    ∃ outputs, run [paletteFile, modFile] requested "" = .ok outputs := by
  obtain ⟨index, indexes, verified⟩ := ok_of_bind verify_modSchemas
  have groupless : ∀ f ∈ modSchemas, f.Groupless := by
    simp only [modSchemas, List.forall_mem_cons, Schema.File.Groupless, Schema.File.declarations_eq]
    decide
  have built : indexed [paletteFile, modFile] = .ok (modSchemas, index) := indexed_eq_ok.2 ⟨rfl, indexes⟩
  obtain ⟨generated, each⟩ := exists_mapM_outputOf fun f listed =>
    exists_fileCode built verified groupless {} (List.mem_of_mem_filter listed)
  exact ⟨_, run_eq_ok.2 ⟨{}, modSchemas, index, generated, rfl, built, verified, each, rfl⟩⟩

theorem distinct_outputs_palette : ∃ outputs, run [paletteFile, modFile] ["palette.proto"] "" = .ok outputs ∧
    (outputs.map (·.name)).Nodup := by
  obtain ⟨outputs, success⟩ := exists_run_mod ["palette.proto"]
  obtain ⟨-, distinct, -⟩ := distinct_outputs (by decide) (by decide) success
  rw [emitted_of_independent (by decide)] at distinct
  exact ⟨outputs, success, distinct.2 fun listed => absurd listed (by decide)⟩

theorem index_over_code : ∃ outputs, run [paletteFile, modFile] ["palette.proto", "mod.proto"] "" = .ok outputs ∧
    outputs.map (·.name) = ["palette.rs", "mod.rs", "mod.rs"] := by
  obtain ⟨outputs, success⟩ := exists_run_mod ["palette.proto", "mod.proto"]
  obtain ⟨options, files, index, generated, -, -, -, names, rfl⟩ := exists_generated success
  have files : (emitted [paletteFile, modFile] ["palette.proto", "mod.proto"]).map outputFile =
      ["palette.rs", "mod.rs"] := by
    rw [emitted_of_independent (by decide)]
    decide
  have made : (moduleIndex? ["palette.rs", "mod.rs"]).isSome = true := by decide +kernel
  obtain ⟨modules, found⟩ := Option.isSome_iff_exists.1 made
  rw [files] at names
  refine ⟨_, success, ?_⟩
  rw [withModules, names, found, List.map_append, names]
  rfl

end Compile

end Protogen
