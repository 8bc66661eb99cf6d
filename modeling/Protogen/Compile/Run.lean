import Protogen.Code.Routines
import Protogen.Schema.Inspect
import Protogen.Schema.Parse
import Protogen.Schema.Verify

set_option autoImplicit false

namespace Protogen.Compile

structure OutputFile where
  name : String
  content : String
  deriving DecidableEq

def wellKnownFolder : String := "google/protobuf/"

def isWellKnown (name : String) : Bool :=
  wellKnownFolder.toList.isPrefixOf name.toList

def fileName (d : Descriptor.File) : String :=
  d.name.getD ""

-- The files that a file depends on. The first descriptor of a name counts.
def dependencies (descriptors : List Descriptor.File) (name : String) : List String :=
  ((descriptors.find? (fileName · == name)).map (·.dependencies)).getD []

/-- The files that code is generated for: those asked for, and the well-known ones that they depend on,
directly or not. -/
def filesToEmit (descriptors : List Descriptor.File) (requested : List String) : List String :=
  let reached := reachable (descriptors.map fileName) (dependencies descriptors) requested
  requested ++ (reached.flatMap (dependencies descriptors)).filter isWellKnown

def indexed (descriptors : List Descriptor.File) :
    Except CompileError (List Schema.File × Schema.Index) := do
  let files ← descriptors.mapM Schema.File.ofDescriptor
  return (files, ← Schema.Index.ofFiles files)

def run (descriptors : List Descriptor.File) (requested : List String) (parameter : String) :
    Except CompileError (List OutputFile) := do
  let options ← Options.parse parameter
  let (files, index) ← indexed descriptors
  Schema.verify index files
  let emitted := filesToEmit descriptors requested
  let outputs ← (files.filter fun f => emitted.contains f.name).mapM fun file => do
    return (⟨Naming.outputFile file.name, ← Code.fileText ⟨options, index, file⟩⟩ : OutputFile)
  match Code.indexText? (outputs.map (·.name)) with
  | some modules => return outputs ++ [⟨"mod.rs", modules⟩]
  | none => return outputs

def inspect (descriptors : List Descriptor.File) : Except CompileError String := do
  return (← indexed descriptors).2.toJson.pretty

end Protogen.Compile
