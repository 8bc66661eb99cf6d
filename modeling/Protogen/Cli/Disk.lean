import Protogen.Cli.Run
import Protogen.Text.Blank

set_option autoImplicit false

namespace Protogen.Cli

abbrev Place := List String

structure Disk where
  files : List (Place × ByteArray) := []
  folders : List Place := []

namespace Disk

def file? (d : Disk) (p : Place) : Option ByteArray :=
  d.files.lookup p

-- The working directory, the folders that it is in and the root are always there.
def isFolder (d : Disk) (p : Place) : Bool :=
  p.all (· == "..") || p == ["/"] || d.folders.contains p

def stepTo (p : Place) (name : String) : Place :=
  if name = "" ∨ name = "." then p
  else if name = ".." then
    match p.getLast? with
    | none => [".."]
    | some ".." => p ++ [".."]
    | some "/" => p
    | some _ => p.dropLast
  else p ++ [name]

def stepsOf (path : String) : Place × List String :=
  let names := (Text.splitAt '/' path.toList).map String.ofList
  if path.toList.head? = some '/' then (["/"], names) else ([], names)

def isName (name : String) : Bool :=
  name.utf8ByteSize ≤ 255 && !name.toList.contains '\x00'

def read? (d : Disk) (path : String) : Option ByteArray :=
  let (start, names) := stepsOf path
  match names.foldlM (fun p n => if d.isFolder p then some (stepTo p n) else none) start with
  | some p => if names.getLast? = some "" then none else d.file? p
  | none => none

def makeFolders (d : Disk) (start : Place) (names : List String) : Option (Disk × Place) :=
  names.foldlM (fun (d, p) n =>
    let q := stepTo p n
    if d.isFolder q then some (d, q)
    else if (d.file? q).isSome || !isName n then none
    else some ({ d with folders := q :: d.folders }, q)) (d, start)

def write? (d : Disk) (path : String) (content : ByteArray) : Option Disk := do
  let (start, names) := stepsOf path
  let (d, folder) ← d.makeFolders start names.dropLast
  let name := names.getLastD ""
  let p := stepTo folder name
  if d.isFolder p || !isName name then none
  else some { d with files := (p, content) :: d.files.filter (·.1 != p) }

def execute (d : Disk) : List Action → ByteArray × Bool × Disk
  | [] => (ByteArray.empty, true, d)
  | .print bytes :: rest =>
    let (printed, done, d) := d.execute rest
    (bytes ++ printed, done, d)
  | .write path content :: rest =>
    match d.write? path content.toUTF8 with
    | some d => d.execute rest
    | none => (ByteArray.empty, false, d)

end Disk

structure Outcome where
  exitCode : Nat
  output : ByteArray
  disk : Disk

/-- Runs the command line in a working directory. The exit code is 2 where the arguments are wrong and
1 where a command fails. -/
def run (args : List String) (input : ByteArray) (d : Disk) : Outcome :=
  match Command.parse args with
  | .error .usage => ⟨2, ByteArray.empty, d⟩
  | .error (.help text) => ⟨0, text.toUTF8, d⟩
  | .ok c =>
    let input? :=
      match c.source? with
      | some path => d.read? path
      | none => some input
    match input? with
    | none => ⟨1, ByteArray.empty, d⟩
    | some input =>
      match c.run input with
      | .error _ => ⟨1, ByteArray.empty, d⟩
      | .ok actions =>
        let (printed, done, d) := d.execute actions
        ⟨if done then 0 else 1, printed, d⟩

end Protogen.Cli
