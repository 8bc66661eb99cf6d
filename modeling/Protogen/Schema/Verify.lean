import Protogen.Schema.Index
import Protogen.Schema.Kind

set_option autoImplicit false

namespace Protogen.Schema

open Number (Range)

def fieldNumbers : Range := ⟨1, 536870912⟩

-- Numbers of that range that are kept for the wire format itself.
def reservedNumbers : Range := ⟨19000, 20000⟩

namespace Enum

def verify (fullName : String) (e : Enum) : Except CompileError Unit :=
  if e.values.isEmpty then .error (.emptyEnum fullName) else .ok ()

end Enum

def ensure (p : Bool) (fault : SchemaFault) : Except CompileError Unit :=
  if p then .ok () else .error (.schema fault)

-- The type of a field must be indexed as what the field takes it for.
def Field.verifyType (index : Index) (context : String) (f : Field) : Except CompileError Unit :=
  match f.kind, f.typeName with
  | .enum, some name => do let _ ← index.enum name context
  | .message, some name | .group, some name => do let _ ← index.message name context
  | .enum, none | .message, none | .group, none => .error (.schema (.noTypeName context))
  | _, _ => .ok ()

def Field.verify (index : Index) (message : String) (choices : Nat) (before : List Field) (f : Field) :
    Except CompileError Unit := do
  let context := message ++ "." ++ f.name
  let number := f.number.toInt
  ensure (!(before.any (·.name == f.name))) (.fieldNameTwice f.name message)
  ensure (!(before.any (·.number == f.number))) (.fieldNumberTwice context)
  ensure (fieldNumbers.contains number) (.numberOutOfRange number context)
  ensure (!reservedNumbers.contains number) (.numberReserved number context)
  match f.choice with
  | some i => ensure (i < choices) (.missingChoice context i)
  | none => .ok ()
  f.verifyType index context

def verifyFields (index : Index) (message : String) (choices : Nat) :
    List Field → List Field → Except CompileError Unit
  | _, [] => .ok ()
  | before, f :: fs => do
    f.verify index message choices before
    verifyFields index message choices (f :: before) fs

-- A map entry has a key, numbered 1, and a value, numbered 2.
def verifyMapEntry (message : String) : List Field → Except CompileError Unit
  | [key, value] => do
    ensure (key.number == 1 && value.number == 2) (.mapEntry message .numbers)
    ensure key.kind.isMapKey (.mapEntry message .keyKind)
    ensure (!key.isRepeated && !value.isRepeated) (.mapEntry message .repeatedField)
  | _ => .error (.schema (.mapEntry message .fieldCount))

mutual

def Message.verify (index : Index) (fullName : String) : Message → Except CompileError Unit
  | ⟨_, fields, choices, messages, enums, isMapEntry⟩ => do
    verifyFields index fullName choices.length [] fields
    if isMapEntry then verifyMapEntry fullName fields
    enums.forM fun e => e.verify (fullName ++ "." ++ e.name)
    Message.verifyAll index fullName messages

def Message.verifyAll (index : Index) (scope : String) : List Message → Except CompileError Unit
  | [] => .ok ()
  | m :: ms => do
    m.verify index (scope ++ "." ++ m.name)
    Message.verifyAll index scope ms

end

def Service.verify (index : Index) (s : Service) : Except CompileError Unit :=
  s.methods.forM fun m => do
    let context := s.name ++ "." ++ m.name
    let _ ← index.message m.input context
    let _ ← index.message m.output context

def File.verify (index : Index) (f : File) : Except CompileError Unit := do
  f.enums.forM fun e => e.verify (f.scope ++ "." ++ e.name)
  Message.verifyAll index f.scope f.messages
  f.services.forM (Service.verify index)

def verify (index : Index) (files : List File) : Except CompileError Unit :=
  files.forM (File.verify index)

end Protogen.Schema
