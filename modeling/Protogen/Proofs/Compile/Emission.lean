import Protogen.Proofs.Compile.Order

set_option autoImplicit false

namespace Protogen.Compile

open Relation (ReflTransGen)
open Schema (Index)

/-- The first descriptor of a name lists the other one. -/
def DependsOn (descriptors : List Descriptor.File) (name other : String) : Prop :=
  ∃ d, descriptors.find? (fileName · == name) = some d ∧ other ∈ d.dependencies

variable {descriptors : List Descriptor.File} {requested : List String} {name other : String}

theorem mem_dependencies : other ∈ dependencies descriptors name ↔ DependsOn descriptors name other := by
  rw [dependencies, DependsOn]
  cases descriptors.find? (fileName · == name) <;> simp

theorem dependsOn_iff : DependsOn descriptors name other ↔
    name ∈ descriptors.map fileName ∧ other ∈ dependencies descriptors name := by
  rw [mem_dependencies]
  constructor
  · intro depends
    have ⟨d, found, _⟩ := depends
    have here : fileName d = name := eq_of_beq (List.find?_some found :)
    exact ⟨here ▸ List.mem_map_of_mem (List.mem_of_find?_eq_some found), depends⟩
  · exact And.right

theorem isWellKnown_iff : isWellKnown name = true ↔ "google/protobuf/".toList <+: name.toList :=
  List.isPrefixOf_iff_prefix

theorem mem_filesToEmit_iff_path : name ∈ filesToEmit descriptors requested ↔ name ∈ requested ∨
    "google/protobuf/".toList <+: name.toList ∧ ∃ first ∈ requested, ∃ file,
      ReflTransGen (DependsOn descriptors) first file ∧ DependsOn descriptors file name := by
  rw [mem_filesToEmit, isWellKnown_iff]
  simp only [reached_iff_path fun _ _ => dependsOn_iff, mem_dependencies]
  grind

theorem name_ofDescriptor {d : Descriptor.File} {file : Schema.File}
    (parsed : Schema.File.ofDescriptor d = .ok file) : file.name = fileName d := by
  obtain ⟨messages, -, built⟩ := ok_of_bind parsed
  cases built
  rfl

variable {options : Options} {index : Index}

/-- The output has the code of the descriptor, under the name that is made of its. -/
def Renders (options : Options) (index : Index) (d : Descriptor.File) (output : OutputFile) : Prop :=
  output.name = Naming.outputFile (fileName d) ∧ ∃ file code, Schema.File.ofDescriptor d = .ok file ∧
    Code.fileCode ⟨options, index, file⟩ = .ok code ∧ output.content = Code.textOf code

theorem renders_of_outputOf {d : Descriptor.File} {file : Schema.File} {output : OutputFile}
    (parsed : Schema.File.ofDescriptor d = .ok file) (written : outputOf options index file = .ok output) :
    Renders options index d output := by
  obtain ⟨code, coded, same⟩ := ok_of_bind written
  cases same
  exact ⟨by rw [name_ofDescriptor parsed], file, code, parsed, coded, rfl⟩

theorem forall₂_renders {files : List Schema.File} {outputs : List OutputFile} (kept : List String)
    (schemas : descriptors.mapM Schema.File.ofDescriptor = .ok files)
    (written : (files.filter fun f => kept.contains f.name).mapM (outputOf options index) = .ok outputs) :
    List.Forall₂ (Renders options index) (descriptors.filter fun d => kept.contains (fileName d)) outputs := by
  have same {d : Descriptor.File} {f : Schema.File} (parsed : Schema.File.ofDescriptor d = .ok f) :
      kept.contains (fileName d) = true ↔ kept.contains f.name = true := by
    rw [name_ofDescriptor parsed]
  have sources : List.Forall₂ (fun d f => Schema.File.ofDescriptor d = .ok f)
      (descriptors.filter fun d => kept.contains (fileName d)) (files.filter fun f => kept.contains f.name) :=
    List.rel_filter (fun _ _ parsed => same parsed) (forall₂_of_mapM schemas)
  refine forall₂_comp ?_ sources (forall₂_of_mapM written)
  exact fun _ _ _ parsed written => renders_of_outputOf parsed written

-- Where every file has code, so has every list of files.
theorem exists_mapM_outputOf {files : List Schema.File}
    (coded : ∀ f ∈ files, ∃ code, Code.fileCode ⟨options, index, f⟩ = .ok code) :
    ∃ outputs, files.mapM (outputOf options index) = .ok outputs := by
  obtain ⟨outputs, written, -⟩ : Gives (files.mapM (outputOf options index)) (List.Forall₂ (fun _ _ => True) files) :=
    .mapM fun f member => by
      obtain ⟨code, success⟩ := coded f member
      exact ⟨_, bind_eq_ok.2 ⟨code, success, rfl⟩, trivial⟩
  exact ⟨outputs, written⟩

/-- No name is looked at twice, whatever depends on what, and the names to emit are those that are asked for and the
well-known ones that some file depends on, to which dependencies lead from there. A run gives files unless reading,
checking or one of these files fails, and it gives one for each descriptor of such a name, in order, and at most the
index of modules behind them. -/
theorem emits_reachable (descriptors : List Descriptor.File) (requested : List String) :
    (reachable (descriptors.map fileName) (dependencies descriptors) requested).Nodup ∧
    (∀ name, name ∈ filesToEmit descriptors requested ↔ name ∈ requested ∨
      "google/protobuf/".toList <+: name.toList ∧ ∃ first ∈ requested, ∃ file,
        ReflTransGen (DependsOn descriptors) first file ∧ DependsOn descriptors file name) ∧
    ∀ parameter,
      ((∃ outputs, run descriptors requested parameter = .ok outputs) ↔ ∃ options files index,
        Options.parse parameter = .ok options ∧ indexed descriptors = .ok (files, index) ∧
          Schema.verify index files = .ok () ∧ ∀ f ∈ files, f.name ∈ filesToEmit descriptors requested →
            ∃ code, Code.fileCode ⟨options, index, f⟩ = .ok code) ∧
      ∀ outputs, run descriptors requested parameter = .ok outputs → ∃ options files index generated,
        Options.parse parameter = .ok options ∧ indexed descriptors = .ok (files, index) ∧
          List.Forall₂ (Renders options index)
            (descriptors.filter fun d => (filesToEmit descriptors requested).contains (fileName d)) generated ∧
          (Code.moduleIndex? (generated.map (·.name)) = none ∧ outputs = generated ∨
            ∃ modules, Code.moduleIndex? (generated.map (·.name)) = some modules ∧
              outputs = generated ++ [⟨"mod.rs", Code.textOf modules⟩]) := by
  refine ⟨nodup_reachable, fun name => mem_filesToEmit_iff_path, fun parameter => ⟨⟨?_, ?_⟩, ?_⟩⟩
  · intro ⟨outputs, success⟩
    obtain ⟨options, files, index, generated, parsed, built, verified, each, -⟩ := run_eq_ok.1 success
    refine ⟨options, files, index, parsed, built, verified, fun f member emitted => ?_⟩
    obtain ⟨output, -, written⟩ := ok_of_mem_mapM each f (List.mem_filter.2 ⟨member, List.contains_iff_mem.2 emitted⟩)
    obtain ⟨code, coded, -⟩ := ok_of_bind written
    exact ⟨code, coded⟩
  · intro ⟨options, files, index, parsed, built, verified, coded⟩
    obtain ⟨generated, each⟩ : ∃ generated, (files.filter fun f =>
        (filesToEmit descriptors requested).contains f.name).mapM (outputOf options index) = .ok generated := by
      refine exists_mapM_outputOf fun f listed => ?_
      obtain ⟨member, emitted⟩ := List.mem_filter.1 listed
      exact coded f member (List.contains_iff_mem.1 emitted)
    exact ⟨_, run_eq_ok.2 ⟨options, files, index, generated, parsed, built, verified, each, rfl⟩⟩
  · intro outputs success
    obtain ⟨options, files, index, generated, parsed, built, -, each, rfl⟩ := run_eq_ok.1 success
    refine ⟨options, files, index, generated, parsed, built, forall₂_renders _ (indexed_eq_ok.1 built).1 each, ?_⟩
    rw [withModules]
    split
    next modules found => exact .inr ⟨modules, found, rfl⟩
    next none => exact .inl ⟨none, rfl⟩

end Protogen.Compile
