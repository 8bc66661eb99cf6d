import Mathlib.Data.List.Nodup
import Protogen.Proofs.Code.ModuleIndex
import Protogen.Proofs.Compile.Generation
import Protogen.Proofs.Reach

set_option autoImplicit false

namespace Protogen.Compile

open Schema (Index)

variable {descriptors descriptors' : List Descriptor.File} {requested requested' : List String} {name : String}

theorem dependencies_of_perm (distinct : (descriptors.map fileName).Nodup) (perm : descriptors.Perm descriptors') :
    dependencies descriptors = dependencies descriptors' := by
  funext name
  rw [dependencies, dependencies, find?_of_perm distinct perm]

theorem mem_filesToEmit : name ∈ filesToEmit descriptors requested ↔ name ∈ requested ∨
    isWellKnown name = true ∧ ∃ other,
      Reached (descriptors.map fileName) (dependencies descriptors) requested other ∧
        name ∈ dependencies descriptors other := by
  simp only [filesToEmit, List.mem_append, List.mem_filter, List.mem_flatMap, mem_reachable]
  rw [and_comm]

theorem filesToEmit_of_perm (distinct : (descriptors.map fileName).Nodup) (perm : descriptors.Perm descriptors')
    (same : ∀ name, name ∈ requested ↔ name ∈ requested') :
    name ∈ filesToEmit descriptors requested ↔ name ∈ filesToEmit descriptors' requested' := by
  have listed (name : String) := (perm.map fileName).mem_iff (a := name)
  have reached (name : String) :
      Reached (descriptors.map fileName) (dependencies descriptors) requested name ↔
        Reached (descriptors'.map fileName) (dependencies descriptors) requested' name :=
    ⟨.congr listed same, .congr (fun name => (listed name).symm) fun name => (same name).symm⟩
  rw [mem_filesToEmit, mem_filesToEmit, ← dependencies_of_perm distinct perm, same]
  simp only [reached]

theorem indexed_of_perm (perm : descriptors.Perm descriptors') {files : List Schema.File} {index : Index}
    (built : indexed descriptors = .ok (files, index)) :
    ∃ files', indexed descriptors' = .ok (files', index) ∧ files'.Perm files := by
  obtain ⟨schemas, indexes⟩ := indexed_eq_ok.1 built
  obtain ⟨files', schemas', same⟩ := perm_of_mapM perm schemas
  exact ⟨files', indexed_eq_ok.2 ⟨schemas', Index.ofFiles_of_perm same.symm indexes⟩, same⟩

def outputOf (options : Options) (index : Index) (file : Schema.File) : Except CompileError OutputFile := do
  return ⟨Naming.outputFile file.name, Code.textOf (← Code.fileCode ⟨options, index, file⟩)⟩

def withModules (outputs : List OutputFile) : List OutputFile :=
  match Code.moduleIndex? (outputs.map (·.name)) with
  | some modules => outputs ++ [⟨"mod.rs", Code.textOf modules⟩]
  | none => outputs

theorem run_eq_ok {parameter : String} {outputs : List OutputFile} :
    run descriptors requested parameter = .ok outputs ↔ ∃ options files index generated,
      Options.parse parameter = .ok options ∧ indexed descriptors = .ok (files, index) ∧
        Schema.verify index files = .ok () ∧
        (files.filter fun f => (filesToEmit descriptors requested).contains f.name).mapM (outputOf options index) =
          .ok generated ∧ withModules generated = outputs := by
  have last (generated : List OutputFile) : (match Code.moduleIndex? (generated.map (·.name)) with
      | some modules => return generated ++ [⟨"mod.rs", Code.textOf modules⟩]
      | none => return generated) = (.ok (withModules generated) : Except CompileError (List OutputFile)) := by
    rw [withModules]
    split <;> rfl
  rw [run_eq]
  constructor
  · intro success
    obtain ⟨options, parsed, success⟩ := ok_of_bind success
    obtain ⟨⟨files, index⟩, built, success⟩ := ok_of_bind success
    obtain ⟨verified, success⟩ := check_eq_ok.1 success
    obtain ⟨generated, each, success⟩ := ok_of_bind success
    exact ⟨options, files, index, generated, parsed, built, verified, each, Except.ok.inj ((last _).symm.trans success)⟩
  · rintro ⟨options, files, index, generated, parsed, built, verified, each, rfl⟩
    refine bind_eq_ok.2 ⟨options, parsed, bind_eq_ok.2 ⟨(files, index), built, check_eq_ok.2 ⟨verified, ?_⟩⟩⟩
    exact bind_eq_ok.2 ⟨generated, each, last generated⟩

theorem exists_run_of_perm (distinct : (descriptors.map fileName).Nodup) (perm : descriptors.Perm descriptors')
    (same : ∀ name, name ∈ requested ↔ name ∈ requested') {parameter : String} {outputs : List OutputFile}
    (success : run descriptors requested parameter = .ok outputs) :
    ∃ outputs', run descriptors' requested' parameter = .ok outputs' ∧ outputs'.Perm outputs := by
  obtain ⟨options, files, index, generated, parsed, built, verified, each, rfl⟩ := run_eq_ok.1 success
  obtain ⟨files', built', filePerm⟩ := indexed_of_perm perm built
  -- The index is the same one, and a file is checked against it whatever the other files are.
  have verified' : Schema.verify index files' = .ok () := by
    rw [Schema.verify_eq_ok] at verified ⊢
    exact fun f member => verified f (filePerm.mem_iff.1 member)
  have emitted : (files.filter fun f => (filesToEmit descriptors requested).contains f.name).Perm
      (files'.filter fun f => (filesToEmit descriptors' requested').contains f.name) := by
    -- The names to emit are only ever asked for a name.
    have alike (f : Schema.File) : (filesToEmit descriptors requested).contains f.name =
        (filesToEmit descriptors' requested').contains f.name := by
      rw [Bool.eq_iff_iff, List.contains_iff_mem, List.contains_iff_mem, filesToEmit_of_perm distinct perm same]
    simp only [alike]
    exact filePerm.symm.filter _
  obtain ⟨generated', each', outputPerm⟩ := perm_of_mapM emitted each
  refine ⟨withModules generated', run_eq_ok.2
    ⟨options, files', index, generated', parsed, built', verified', each', rfl⟩, ?_⟩
  rw [withModules, withModules, Code.moduleIndex?_of_perm (outputPerm.map (·.name))]
  split
  next modules _ => exact outputPerm.append_right _
  next => exact outputPerm

/-- Whether a run succeeds, and which files it gives, is left to what it reads: neither the order of descriptors
counts, nor the order in which names are asked for, nor how often. -/
theorem run_of_arrangement (distinct : (descriptors.map fileName).Nodup) (perm : descriptors.Perm descriptors')
    (same : ∀ name, name ∈ requested ↔ name ∈ requested') (parameter : String) :
    ((∃ outputs, run descriptors requested parameter = .ok outputs) ↔
        ∃ outputs, run descriptors' requested' parameter = .ok outputs) ∧
      ∀ outputs outputs', run descriptors requested parameter = .ok outputs →
        run descriptors' requested' parameter = .ok outputs' → outputs.Perm outputs' := by
  refine ⟨⟨?_, ?_⟩, fun outputs outputs' success success' => ?_⟩
  · rintro ⟨_, success⟩
    obtain ⟨outputs', success', -⟩ := exists_run_of_perm distinct perm same success
    exact ⟨outputs', success'⟩
  · rintro ⟨_, success'⟩
    have distinct' : (descriptors'.map fileName).Nodup := (perm.map fileName).nodup_iff.1 distinct
    obtain ⟨outputs, success, -⟩ := exists_run_of_perm distinct' perm.symm (fun name => (same name).symm) success'
    exact ⟨outputs, success⟩
  · obtain ⟨_, again, outputPerm⟩ := exists_run_of_perm distinct perm same success
    cases success'.symm.trans again
    exact outputPerm.symm

def paletteFile : Descriptor.File where
  name := some "palette.proto"
  package := some "palette"
  grammar := some "proto3"
  enums := [{ name := some "Color", values := [{ name := some "RED", number := some 0 }] }]

def wallFile : Descriptor.File where
  name := some "wall.proto"
  grammar := some "proto3"
  dependencies := ["palette.proto"]
  messages := [{
    name := some "Wall"
    fields := [{ name := some "color", number := some 1, kind := some 14, typeName := some ".palette.Color" }] }]

def paintSchemas : List Schema.File := [
  { name := "palette.proto", package := "palette", grammar := .proto3
    enums := [⟨"Color", [⟨"RED", 0⟩]⟩], messages := [], services := [] },
  { name := "wall.proto", package := "", grammar := .proto3, enums := [], services := []
    messages := [
      ⟨"Wall", [⟨"color", "color", 1, .enum, .optional, some ".palette.Color", none, false⟩], [], [], [], false⟩] }]

theorem verify_paintSchemas : (Index.ofFiles paintSchemas >>= (Schema.verify · paintSchemas)) = .ok () := by
  simp only [Index.ofFiles, paintSchemas, List.flatMap_cons, List.flatMap_nil, Schema.File.declarations_eq]
  rfl

theorem groupless_paintSchemas : ∀ f ∈ paintSchemas, f.Groupless := by
  simp only [paintSchemas, List.forall_mem_cons, Schema.File.Groupless, Schema.File.declarations_eq]
  decide

theorem run_of_arrangement_paint : ∃ outputs outputs',
    run [paletteFile, wallFile] ["palette.proto", "wall.proto"] "" = .ok outputs ∧
      run [wallFile, paletteFile] ["wall.proto", "palette.proto", "wall.proto"] "" = .ok outputs' ∧
        outputs.Perm outputs' := by
  obtain ⟨index, indexes, verified⟩ := ok_of_bind verify_paintSchemas
  have built : indexed [paletteFile, wallFile] = .ok (paintSchemas, index) := indexed_eq_ok.2 ⟨rfl, indexes⟩
  have valid := Schema.verify_eq_ok.1 verified
  have sound := Index.sound_of_verified indexes valid groupless_paintSchemas
  have coded (files : List Schema.File) (listed : ∀ f ∈ files, f ∈ paintSchemas) :
      ∃ generated, files.mapM (outputOf {} index) = .ok generated := by
    have each : Gives (files.mapM (outputOf {} index)) (List.Forall₂ (fun _ _ => True) files) :=
      .mapM fun f member => (Code.gives_fileCode sound (valid f (listed f member))
        (groupless_paintSchemas f (listed f member))).bind fun _ _ => .ok trivial
    exact each.imp fun _ => And.left
  have parsed : Options.parse "" = .ok {} := rfl
  obtain ⟨outputs, success⟩ :
      ∃ outputs, run [paletteFile, wallFile] ["palette.proto", "wall.proto"] "" = .ok outputs := by
    obtain ⟨generated, each⟩ := coded _ fun f => List.mem_of_mem_filter
    exact ⟨_, run_eq_ok.2 ⟨{}, paintSchemas, index, generated, parsed, built, verified, each, rfl⟩⟩
  have distinct : ([paletteFile, wallFile].map fileName).Nodup := by decide
  have same (name : String) :
      name ∈ ["palette.proto", "wall.proto"] ↔ name ∈ ["wall.proto", "palette.proto", "wall.proto"] := by
    simp only [List.mem_cons, List.not_mem_nil]
    tauto
  obtain ⟨alike, perm⟩ := run_of_arrangement distinct (.swap wallFile paletteFile []) same ""
  obtain ⟨outputs', success'⟩ := alike.1 ⟨_, success⟩
  exact ⟨outputs, outputs', success, success', perm _ _ success success'⟩

end Protogen.Compile
