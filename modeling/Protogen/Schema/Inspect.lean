import Protogen.Json.Printer
import Protogen.Schema.Index

set_option autoImplicit false

namespace Protogen.Schema

def Syntax.name : Syntax → String
  | proto2 => "Proto2"
  | proto3 => "Proto3"

def Label.name : Label → String
  | optional => "Optional"
  | required => "Required"
  | repeated => "Repeated"

def Kind.name : Kind → String
  | double => "Double"
  | float => "Float"
  | int64 => "Int64"
  | uint64 => "Uint64"
  | int32 => "Int32"
  | fixed64 => "Fixed64"
  | fixed32 => "Fixed32"
  | bool => "Bool"
  | string => "String"
  | group => "Group"
  | message => "Message"
  | bytes => "Bytes"
  | uint32 => "Uint32"
  | enum => "Enum"
  | sfixed32 => "Sfixed32"
  | sfixed64 => "Sfixed64"
  | sint32 => "Sint32"
  | sint64 => "Sint64"

private def optionJson {α : Type} (f : α → Json) : Option α → Json
  | some a => f a
  | none => .null

def Field.toJson (f : Field) : Json :=
  .object [
    ("name", .string f.name),
    ("json_name", .string f.jsonName),
    ("number", .int f.number.toInt),
    ("kind", .string f.kind.name),
    ("label", .string f.label.name),
    ("type_name", optionJson .string f.typeName),
    ("oneof_index", optionJson (fun i : Nat => .int i) f.choice),
    ("proto3_optional", .bool f.explicitPresence)]

def Enum.toJson (e : Enum) : Json :=
  .object [
    ("name", .string e.name),
    ("values", .array (e.values.map fun v =>
      .object [("name", .string v.name), ("number", .int v.number.toInt)]))]

mutual

def Message.toJson : Message → Json
  | ⟨name, fields, choices, messages, enums, isMapEntry⟩ =>
    .object [
      ("name", .string name),
      ("fields", .array (fields.map Field.toJson)),
      ("oneofs", .array (choices.map fun c => .object [("name", .string c)])),
      ("messages", .array (Message.toJsons messages)),
      ("enums", .array (enums.map Enum.toJson)),
      ("map_entry", .bool isMapEntry)]

def Message.toJsons : List Message → List Json
  | [] => []
  | m :: ms => m.toJson :: Message.toJsons ms

end

def Method.toJson (m : Method) : Json :=
  .object [
    ("name", .string m.name),
    ("input_type", .string m.input),
    ("output_type", .string m.output),
    ("client_streaming", .bool m.clientStreaming),
    ("server_streaming", .bool m.serverStreaming)]

def Service.toJson (s : Service) : Json :=
  .object [("name", .string s.name), ("methods", .array (s.methods.map Method.toJson))]

def File.toJson (f : File) : Json :=
  .object [
    ("name", .string f.name),
    ("package", .string f.package),
    ("syntax", .string f.grammar.name),
    ("enums", .array (f.enums.map Enum.toJson)),
    ("messages", .array (Message.toJsons f.messages)),
    ("services", .array (f.services.map Service.toJson))]

def Declaration.toJson : Declaration → Json
  | enum e => .object [("Enum", e.toJson)]
  | message m => .object [("Message", m.toJson)]

def Entry.toJson (e : Entry) : Json :=
  .object [
    ("module", .string e.modulePath),
    ("file", .string e.file),
    ("symbol", .string e.symbol),
    ("declaration", e.declaration.toJson)]

def Index.toJson (index : Index) : Json :=
  .object (index.entries.entries.map fun e => (e.1, e.2.toJson))

end Protogen.Schema
