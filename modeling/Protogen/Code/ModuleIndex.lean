import Protogen.Code.Writer
import Protogen.Dict
import Protogen.Naming.Module

set_option autoImplicit false

namespace Protogen.Code

/-- A module: of a file, or of a directory with the modules in it, sorted by name. -/
inductive Module where
  | file
  | directory (children : List (String × Module))

namespace Module

-- Adds the file `leaf`, inside the directories `dirs`, to the modules of a directory.
def insertPath? (leaf : String) : List String → List (String × Module) →
    Option (List (String × Module))
  | [], level =>
    match level.lookup leaf with
    | some (directory _) => none
    | _ => some (insertKey leaf file level)
  | d :: dirs, level =>
    match level.lookup d with
    | some file => none
    | some (directory children) => do
      return insertKey d (directory (← insertPath? leaf dirs children)) level
    | none => do return insertKey d (directory (← insertPath? leaf dirs [])) level

def pathOf (name : String) : List String :=
  Naming.segments (((Text.stripEnd? name.toList ".rs".toList).map String.ofList).getD name)

-- Adds an output file. A path without parts adds nothing.
def insert? (level : List (String × Module)) (name : String) : Option (List (String × Module)) :=
  let path := pathOf name
  match path.getLast? with
  | some leaf => insertPath? leaf path.dropLast level
  | none => some level

def ofFiles? (names : List String) : Option (List (String × Module)) :=
  names.foldlM insert? []

mutual

-- The declaration of a module. One whose identifier is not its name says where it is.
def code (name : String) : Module → List Block
  | file =>
    let ident := Naming.moduleIdent name
    (if ident = name then [] else [.line ("#[path = " ++ Piece.literal (name ++ ".rs") ++ "]")]) ++
      [.line ("pub mod " ++ ident ++ ";")]
  | directory children =>
    let ident := Naming.moduleIdent name
    (if ident = name then [] else [.line ("#[path = " ++ Piece.literal name ++ "]")]) ++
      [block ("pub mod " ++ ident) (codeAll children)]

def codeAll : List (String × Module) → List Block
  | [] => []
  | (name, m) :: rest => m.code name ++ codeAll rest

end

end Module

def moduleIndex? (names : List String) : Option (List Block) := do
  let modules ← Module.ofFiles? names
  return [.line "// Code generated by protoc-gen-protoweave. DO NOT EDIT.", .blank] ++
    Module.codeAll modules

end Protogen.Code
