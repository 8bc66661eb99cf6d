import Protogen.Cli.Run

set_option autoImplicit false

namespace Protogen.Main

partial def readAll (stream : IO.FS.Stream) (bytes : ByteArray) : IO ByteArray := do
  let more ← stream.read 65536
  if more.isEmpty then return bytes else readAll stream (bytes ++ more)

def folderOf (path : String) : String :=
  String.intercalate "/" (path.splitOn "/").dropLast

def perform : Cli.Action → IO Unit
  | .print bytes => do
    let stdout ← IO.getStdout
    stdout.write bytes
    stdout.flush
  | .write path content => do
    let folder := folderOf path
    unless folder.isEmpty do IO.FS.createDirAll folder
    IO.FS.writeFile path content

def runCommand (c : Cli.Command) : IO UInt32 := do
  let input ←
    match c.source? with
    | some path => IO.FS.readBinFile path
    | none => readAll (← IO.getStdin) ByteArray.empty
  match c.run input with
  | .ok actions =>
    actions.forM perform
    return 0
  | .error e =>
    IO.eprintln ("Error: " ++ e.message)
    return 1

end Protogen.Main

def main (args : List String) : IO UInt32 := do
  match Protogen.Cli.Command.parse args with
  | .ok c =>
    try Protogen.Main.runCommand c
    catch e =>
      IO.eprintln ("Error: " ++ toString e)
      return 1
  | .error (.help text) =>
    IO.print text
    return 0
  | .error .usage =>
    IO.eprintln "error: the arguments are not understood; try '--help'"
    return 2
