import Protogen.Schema.Index
import Protogen.Target.Struct

set_option autoImplicit false

namespace Protogen.Target

open Schema (Index Kind)

structure Context where
  options : Options
  index : Index
  file : Schema.File

namespace Context

def path (ctx : Context) (fullName ending : String) : Except CompileError String :=
  ctx.index.path fullName ctx.file.name ctx.options.moduleRoot ending

end Context

def timestampName : String := ".google.protobuf.Timestamp"

-- The type of the one field of a message that only wraps a value.
def wrapped? : String → Option Kind
  | ".google.protobuf.DoubleValue" => some .double
  | ".google.protobuf.FloatValue" => some .float
  | ".google.protobuf.Int64Value" => some .int64
  | ".google.protobuf.UInt64Value" => some .uint64
  | ".google.protobuf.Int32Value" => some .int32
  | ".google.protobuf.UInt32Value" => some .uint32
  | ".google.protobuf.BoolValue" => some .bool
  | ".google.protobuf.StringValue" => some .string
  | ".google.protobuf.BytesValue" => some .bytes
  | _ => none

def requireTypeName (f : Schema.Field) (context : String) : Except CompileError String :=
  match f.typeName with
  | some name => .ok name
  | none => .error (.unresolvedType "<missing>" context)

def Primitive.ofKind (form : LongOption) (k : Kind) : Primitive :=
  if k.isLong then .long k form else .scalar k

def Base.ofField (ctx : Context) (owner : String) (f : Schema.Field) (context : String) :
    Except CompileError Base :=
  match f.kind with
  | .group => .error (.unsupportedFieldType context "group")
  | .message => do
    let target ← requireTypeName f context
    match wrapped? target with
    | some k => return .child (.wrapper (← ctx.path target "") (.ofKind ctx.options.long k))
    | none =>
      if target = timestampName then
        return .child
          (.timestamp (← ctx.path target "") (← ctx.path target "Partial") ctx.options.date)
      else
        let _ ← ctx.index.message target context
        return .child (.message (← ctx.path target "") (← ctx.path target "Partial")
          (!f.isRepeated && ctx.index.isRecursive owner target))
  | .enum => do
    let target ← requireTypeName f context
    match (← ctx.index.enum target context).default? with
    | none => throw (.emptyEnum target)
    | some value =>
      return .primitive (.enum (← ctx.path target "") ctx.options.stringEnums value.number
        (Naming.variant value.name))
  | k => .ok (.primitive (.ofKind ctx.options.long k))

-- A singular field may be absent if it is in a choice or holds a message.
def singular (f : Schema.Field) (base : Base) : Container :=
  if f.explicitPresence || f.choice.isSome || base.isDelimited then .optional else .required

def containerOf (ctx : Context) (f : Schema.Field) (base : Base) : Container :=
  if f.isRepeated then .repeated
  else
    match f.choice with
    | some i =>
      if ctx.options.choice = .unions && !f.explicitPresence then .union i (Naming.pascal f.name)
      else singular f base
    | none => singular f base

def Field.plain (ctx : Context) (owner : String) (f : Schema.Field) : Except CompileError Field := do
  let base ← Base.ofField ctx owner f (owner ++ "." ++ f.name)
  return {
    schema := f
    ident := Naming.fieldIdent f.name
    jsonKey := if ctx.options.snakeToCamel then f.jsonName else f.name
    base
    container := containerOf ctx f base }

/-- The field of an item for a field of the message `owner`. A repeated field whose messages are map
entries is a map, of the values of the entries, which `inner` maps if it may. -/
def Field.ofSchemaWith (ctx : Context) (inner : Option (String → Schema.Field → Except CompileError Field))
    (owner : String) (f : Schema.Field) : Except CompileError Field := do
  let context := owner ++ "." ++ f.name
  if f.isRepeated && f.kind == .message then
    let entryName ← requireTypeName f context
    let entry ← ctx.index.message entryName context
    if !entry.isMapEntry then Field.plain ctx owner f
    else
      match entry.fields, inner with
      | [keyField, valueField], some inner =>
        let key ← Base.ofField ctx entryName keyField context
        let value ← inner entryName valueField
        let entryPath ← ctx.path entryName ""
        return {
          schema := f
          ident := Naming.fieldIdent f.name
          jsonKey := if ctx.options.snakeToCamel then f.jsonName else f.name
          base := value.base.unboxed
          container := .map {
            key
            entryPath
            valueWrapped := value.container == .optional
            valueBoxed := value.base.isBoxed } }
      | _, _ => throw (.schema (.entryFields entryName))
  else Field.plain ctx owner f

-- Entries within entries are followed `depth` deep.
def Field.ofSchemaTo (ctx : Context) : Nat → String → Schema.Field → Except CompileError Field
  | 0 => Field.ofSchemaWith ctx none
  | depth + 1 => Field.ofSchemaWith ctx (some (Field.ofSchemaTo ctx depth))

-- The value of a map entry is no map, so entries one deep are enough; the index bounds how deep they could nest
-- without that.
def Field.ofSchema (ctx : Context) (owner : String) (f : Schema.Field) : Except CompileError Field :=
  Field.ofSchemaTo ctx (ctx.index.size + 1) owner f

-- Adds a field to the member of its choice, which is begun where it is the first.
def addToUnion (symbol : String) (choices : List String) (unions : List Union) (choice : Nat)
    (position : Nat) : List Union :=
  if unions.any (·.choice == choice) then
    unions.map fun u =>
      if u.choice = choice then { u with members := u.members ++ [position] } else u
  else
    let name := choices.getD choice ""
    unions ++ [{
      choice
      ident := Naming.fieldIdent name
      symbol := symbol ++ "_" ++ Naming.pascal name
      members := [position] }]

def Struct.ofMessage (ctx : Context) (fullName symbol : String) (m : Schema.Message) :
    Except CompileError Struct := do
  let fields ← m.fields.mapM (Field.ofSchema ctx fullName)
  let unions := fields.zipIdx.foldl (fun unions (f, i) =>
    match f.container with
    | .union choice _ => addToUnion symbol m.choices unions choice i
    | _ => unions) []
  return { fullName, symbol, fields, unions }

end Protogen.Target
