import Protogen.Compile.Error
import Protogen.Dict
import Protogen.Naming.Module
import Protogen.Reach
import Protogen.Schema.Declaration

set_option autoImplicit false

namespace Protogen.Schema

structure Entry where
  modulePath : String
  file : String
  symbol : String
  declaration : Declaration

structure Index where
  entries : Dict Entry

namespace Index

def empty : Index := ⟨.empty⟩

-- Adds a declaration of a file. A name may be declared once.
def declare (index : Index) (file : File) (d : Declared) : Except CompileError Index :=
  if (index.entries.get? d.fullName).isSome then .error (.duplicateType d.fullName)
  else
    .ok ⟨index.entries.insert d.fullName
      ⟨Naming.modulePath file.name, file.name, d.symbol, d.declaration⟩⟩

def ofFiles (files : List File) : Except CompileError Index :=
  (files.flatMap fun f => f.declarations.map fun d => (f, d)).foldlM
    (fun index fd => index.declare fd.1 fd.2) empty

def size (index : Index) : Nat :=
  index.entries.entries.length

def find? (index : Index) (fullName : String) : Option Entry :=
  index.entries.get? fullName

def contains (index : Index) (fullName : String) : Bool :=
  (index.find? fullName).isSome

def get (index : Index) (fullName context : String) : Except CompileError Entry :=
  match index.find? fullName with
  | some entry => .ok entry
  | none => .error (.unresolvedType fullName context)

def message (index : Index) (fullName context : String) : Except CompileError Message := do
  match (← index.get fullName context).declaration with
  | .message m => return m
  | .enum _ => throw (.schema (.notMessage context fullName))

def enum (index : Index) (fullName context : String) : Except CompileError Enum := do
  match (← index.get fullName context).declaration with
  | .enum e => return e
  | .message _ => throw (.schema (.notEnum context fullName))

-- The path of a type, with `ending` after its symbol, as it is written in the code for a file. A type of another
-- file is reached from the root.
def path (index : Index) (fullName file root ending : String) : Except CompileError String := do
  let entry ← index.get fullName file
  if entry.file = file then return entry.symbol ++ ending
  else return root ++ "::" ++ entry.modulePath ++ "::" ++ entry.symbol ++ ending

-- The types of the messages that a message holds in singular fields.
def Message.singularChildren (m : Message) : List String :=
  (m.fields.filter fun f => f.kind == .message && !f.isRepeated).filterMap (·.typeName)

def children (index : Index) (fullName : String) : List String :=
  match index.find? fullName with
  | some ⟨_, _, _, .message m⟩ => Message.singularChildren m
  | _ => []

def names (index : Index) : List String :=
  index.entries.entries.map (·.1)

/-- Whether `target` leads back to `owner` through singular message fields, so that a value of it
inside an owner has no finite size. -/
def isRecursive (index : Index) (owner target : String) : Bool :=
  (reachable index.names index.children [target]).contains owner

end Index

end Protogen.Schema
