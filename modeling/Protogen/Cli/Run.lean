import Protogen.Cli.Arguments
import Protogen.Plugin.Exchange

set_option autoImplicit false

namespace Protogen.Cli

inductive Action where
  | print (bytes : ByteArray)
  -- Writes a file, in a folder that is made if need be.
  | write (path : String) (content : String)

namespace Command

def source? : Command → Option String
  | plugin => none
  | generate set _ _ _ => some set
  | inspect set => some set

end Command

-- A path from a folder on. One that begins with a slash stays as it is.
def joinPath (folder path : String) : String :=
  if path.toList.head? = some '/' ∨ folder.isEmpty then path
  else if folder.toList.getLast? = some '/' then folder ++ path
  else folder ++ "/" ++ path

private def printLine (s : String) : Action :=
  .print (s ++ "\n").toUTF8

private def decodeOr {α : Type} : Option α → Except CompileError α
  | some a => .ok a
  | none => .error .decode

-- Unless files are named, all those that are not well-known are asked for.
def requestedFiles (descriptors : List Descriptor.File) (files : List String) : List String :=
  if files.isEmpty then (descriptors.map Compile.fileName).filter fun n => !Compile.isWellKnown n
  else files

def Command.run (c : Command) (input : ByteArray) : Except CompileError (List Action) := do
  match c with
  | plugin =>
    let request ← decodeOr (Plugin.Request.decode? input)
    return [.print (Plugin.respond request).encode]
  | generate _ out files options =>
    let descriptors ← decodeOr (Descriptor.decodeSet? input)
    let outputs ← Compile.run descriptors (requestedFiles descriptors files)
      (String.intercalate "," options)
    return outputs.flatMap fun f =>
      let path := joinPath out f.name
      [.write path f.content, printLine ("Generated " ++ path)]
  | inspect _ =>
    let descriptors ← decodeOr (Descriptor.decodeSet? input)
    return [printLine (← Compile.inspect descriptors)]

end Protogen.Cli
