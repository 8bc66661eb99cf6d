import Protogen.Compile.Error
import Protogen.Descriptor.Basic
import Protogen.Naming.Case
import Protogen.Schema.Kind

set_option autoImplicit false

namespace Protogen.Schema

private def kindOf (owner : String) (f : Descriptor.Field) : Except CompileError Kind :=
  let unsupported (kind : String) : Except CompileError Kind :=
    .error (.unsupportedFieldType (owner ++ "." ++ f.name.getD "") kind)
  match f.kind with
  | none => unsupported "<unset>"
  | some n =>
    match Kind.ofNumber? n.toInt with
    | some k => .ok k
    | none => unsupported (String.ofList (Number.intText n.toInt))

-- A label that is unset or unknown is optional.
private def labelOf : Option Int32 → Label
  | some 2 => .required
  | some 3 => .repeated
  | _ => .optional

def Field.ofDescriptor (owner : String) (f : Descriptor.Field) : Except CompileError Field := do
  let kind ← kindOf owner f
  let name := f.name.getD ""
  return {
    name
    jsonName := (f.jsonName.filter (!·.isEmpty)).getD (Naming.lowerCamel name)
    number := f.number.getD 0
    kind
    label := labelOf f.label
    typeName := f.typeName.filter (!·.isEmpty)
    choice := (f.choice.filter (0 ≤ ·)).map (·.toInt.toNat)
    explicitPresence := f.explicitPresence.getD false }

def Enum.ofDescriptor (e : Descriptor.Enum) : Enum :=
  ⟨e.name.getD "", e.values.map fun v => ⟨v.name.getD "", v.number.getD 0⟩⟩

mutual

/-- The fields of a message come before its nested messages, so of two faults theirs is found. -/
def Message.ofDescriptor : Descriptor.Message → Except CompileError Message
  | ⟨name, fields, messages, enums, choices, isMapEntry⟩ => do
    let name := name.getD ""
    let fields ← fields.mapM (Field.ofDescriptor name)
    let messages ← Message.ofDescriptors messages
    return {
      name
      fields
      choices := choices.map (·.getD "")
      messages
      enums := enums.map Enum.ofDescriptor
      isMapEntry := isMapEntry.getD false }

def Message.ofDescriptors : List Descriptor.Message → Except CompileError (List Message)
  | [] => .ok []
  | m :: ms => do
    let first ← Message.ofDescriptor m
    return first :: (← Message.ofDescriptors ms)

end

def Service.ofDescriptor (s : Descriptor.Service) : Service :=
  ⟨s.name.getD "", s.methods.map fun m =>
    ⟨m.name.getD "", m.input.getD "", m.output.getD "", m.clientStreaming.getD false,
      m.serverStreaming.getD false⟩⟩

def File.ofDescriptor (f : Descriptor.File) : Except CompileError File := do
  let messages ← Message.ofDescriptors f.messages
  return {
    name := f.name.getD ""
    package := f.package.getD ""
    grammar := if f.grammar = some "proto3" then .proto3 else .proto2
    enums := f.enums.map Enum.ofDescriptor
    messages
    services := f.services.map Service.ofDescriptor }

end Protogen.Schema
