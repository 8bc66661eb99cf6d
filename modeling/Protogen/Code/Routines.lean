import Protogen.Code.File
import Protogen.Code.ModuleIndex

set_option autoImplicit false

namespace Protogen.Code

open Target (BatchMethod Context Enumeration Field Member Method Service Struct Union Variant)

def writeHeader (ctx : Context) : List Step := [
  Step.line "// Code generated by protoc-gen-protoweave. DO NOT EDIT.",
  Step.line ("// source: " ++ ctx.file.name),
  Step.blank,
  Step.line "#![allow(clippy::all, dead_code)]",
  Step.blank,
  Step.line "#[allow(unused_imports)]",
  Step.line ("use ::protoweave::\x7bjson, CodecError, FromPartial as _, JsonMessage as _, " ++
    "Message as _\x7d;"),
  Step.line "#[allow(unused_imports)]",
  Step.line "use ::protoweave::serde_json::\x7bMap as JsonMap, Value as JsonValue\x7d;",
  Step.blank,
  Step.line ("pub const PROTOBUF_PACKAGE: &str = " ++ Piece.literal ctx.file.package ++ ";")]

-- Declarations

def writeAttribute (symbol : String) : List Step :=
  if symbol.toList.contains '_' then [Step.line "#[allow(non_camel_case_types)]"] else []

def writeStruct (s : Struct) : List Step :=
  [Step.line "#[derive(Debug, Clone, PartialEq)]"] ++ writeAttribute s.symbol ++
  (if s.members.isEmpty then [Step.line ("pub struct " ++ s.symbol ++ " \x7b\x7d")]
  else
    [Step.opening ("pub struct " ++ s.symbol)] ++
    s.members.map (fun m => Step.line (declaredMember m)) ++
    [Step.close]) ++
  s.unions.flatMap fun u =>
    [Step.blank,
      Step.line "#[derive(Debug, Clone, PartialEq)]",
      Step.line "#[allow(non_camel_case_types)]",
      Step.opening ("pub enum " ++ u.symbol)] ++
    (s.variants u).map (fun (variant, f) => Step.line (variant ++ "(" ++ f.base.type ++ "),")) ++
    [Step.close]

def writeDefault (s : Struct) : List Step :=
  [Step.opening ("impl Default for " ++ s.symbol), Step.opening "fn default() -> Self"] ++
  (if s.members.isEmpty then [Step.line "Self \x7b\x7d"]
  else
    [Step.opening "Self"] ++
    s.members.map (fun m => Step.line (unsetMember m)) ++
    [Step.close]) ++
  [Step.close, Step.close]

def writeNames (symbol : String) (variants : List Variant) (extra : Option (String × String)) : List Step :=
  [Step.opening "pub fn as_str_name(&self) -> &'static str", Step.opening "match self"] ++
  variants.map (fun v => Step.line (symbol ++ "::" ++ v.name ++ " => " ++ Piece.literal v.written ++ ",")) ++
  extra.toList.map (fun (variant, name) =>
    Step.line (symbol ++ "::" ++ variant ++ " => " ++ Piece.literal name ++ ",")) ++
  [Step.close, Step.close]

def writeNumberEnum (e : Enumeration) (json : EnumJson) : List Step :=
  [Step.line "#[derive(Debug, Clone, Copy, PartialEq, Eq, Hash, PartialOrd, Ord)]", Step.line "#[repr(i32)]"] ++
  writeAttribute e.symbol ++
  [Step.opening ("pub enum " ++ e.symbol)] ++
  e.variants.map (fun v => Step.line (v.name ++ " = " ++ number v.number ++ ",")) ++
  [Step.close, Step.blank, Step.opening ("impl " ++ e.symbol)] ++
  writeNames e.symbol e.variants none ++
  [Step.blank,
    Step.opening ("pub fn from_i32(value: i32) -> Option<" ++ e.symbol ++ ">"),
    Step.opening "match value"] ++
  e.variants.map (fun v =>
    Step.line (number v.number ++ " => Some(" ++ e.symbol ++ "::" ++ v.name ++ "),")) ++
  [Step.line "_ => None,", Step.close, Step.close, Step.blank,
    Step.line "/// Accepts a value name or a number.",
    Step.opening "pub fn from_json(value: &JsonValue) -> Result<i32, CodecError>",
    Step.opening "match value",
    Step.opening "JsonValue::String(name) => match name.as_str()"] ++
  e.variants.flatMap (fun v =>
    let found : String := "Ok(" ++ number v.number ++ ")"
    v.aliases.map fun name => Step.line (Piece.literal name ++ " => " ++ found ++ ",")) ++
  [Step.line ("other => other.parse().map_err(|_| CodecError::InvalidEnumValue " ++
      Line.braced ("enum_name: \"" ++ e.symbol ++ "\", value: other.to_string()") ++ "),"),
    Step.closing "\x7d,",
    Step.line "other => json::int32(other),",
    Step.close, Step.close, Step.blank,
    Step.opening "pub fn to_json(value: i32) -> JsonValue"] ++
  (match json with
  | .name => [
    Step.opening ("match " ++ e.symbol ++ "::from_i32(value)"),
    Step.line "Some(known) => JsonValue::from(known.as_str_name()),",
    Step.line "None => JsonValue::from(value),",
    Step.close]
  | .number => [Step.line "JsonValue::from(value)"]) ++
  [Step.close, Step.close]

def writeVariantEnum (e : Enumeration) (json : EnumJson) : List Step :=
  let extra := if e.addsFallback then some (Enumeration.fallback, "UNRECOGNIZED") else none
  let unknown := e.symbol ++ "::" ++ Enumeration.fallback
  [Step.line "#[derive(Debug, Clone, Copy, PartialEq, Eq, Hash, PartialOrd, Ord)]"] ++
  writeAttribute e.symbol ++
  [Step.opening ("pub enum " ++ e.symbol)] ++
  e.variants.map (fun v => Step.line (v.name ++ ",")) ++
  (if extra.isSome then [Step.line (Enumeration.fallback ++ ",")] else []) ++
  [Step.close, Step.blank, Step.opening ("impl " ++ e.symbol),
    Step.opening ("pub fn from_number(value: i32) -> " ++ e.symbol),
    Step.opening "match value"] ++
  e.variants.map (fun v => Step.line (number v.number ++ " => " ++ e.symbol ++ "::" ++ v.name ++ ",")) ++
  [Step.line ("_ => " ++ unknown ++ ","), Step.close, Step.close, Step.blank,
    Step.opening "pub fn to_number(self) -> i32",
    Step.opening "match self"] ++
  e.variants.map (fun v => Step.line (e.symbol ++ "::" ++ v.name ++ " => " ++ number v.number ++ ",")) ++
  (if extra.isSome then [Step.line (e.symbol ++ "::" ++ Enumeration.fallback ++ " => " ++ number (-1) ++ ",")]
  else []) ++
  [Step.close, Step.close, Step.blank] ++
  writeNames e.symbol e.variants extra ++
  [Step.blank,
    Step.line "/// Unknown names and numbers become `Unrecognized`.",
    Step.opening ("pub fn from_json(value: &JsonValue) -> Result<" ++ e.symbol ++ ", CodecError>"),
    Step.opening "match value",
    Step.opening "JsonValue::String(name) => Ok(match name.as_str()"] ++
  e.variants.flatMap (fun v =>
    let found : String := e.symbol ++ "::" ++ v.name
    v.aliases.map fun name => Step.line (Piece.literal name ++ " => " ++ found ++ ",")) ++
  [Step.line ("other => other.parse().map(" ++ e.symbol ++ "::from_number).unwrap_or(" ++ unknown ++ "),"),
    Step.closing "\x7d),",
    Step.line ("other => json::int32(other).map(" ++ e.symbol ++ "::from_number),"),
    Step.close, Step.close, Step.blank,
    Step.opening "pub fn to_json(self) -> JsonValue"] ++
  (match json with
  | .name => [Step.line "JsonValue::from(self.as_str_name())"]
  | .number => [Step.line "JsonValue::from(self.to_number())"]) ++
  [Step.close, Step.close]

def writeEnum (options : Options) (e : Enumeration) : List Step :=
  if options.stringEnums then writeVariantEnum e options.jsonEnums else writeNumberEnum e options.jsonEnums

-- The binary codec

def writeValue (f : Field) (v : Value) : List Step :=
  match f.base with
  | .child c => [
    Step.line ("writer.uint32(" ++ tagOf f .delimited ++ ").fork();"),
    Step.line (childMessage c v ++ ".encode(writer)?;"),
    Step.line "writer.ldelim();"]
  | .primitive p => [Step.line ("writer.uint32(" ++ tagOf f p.wireType ++ ")." ++ writeCall p v ++ ";")]

def writeEncodeField (f : Field) : List Step :=
  let place := "self." ++ f.ident
  match f.container with
  | .required =>
    match f.base with
    | .child _ => writeValue f (.place place)
    | .primitive p =>
      [Step.opening ("if " ++ differsFromZero p place)] ++ writeValue f (.place place) ++ [Step.close]
  | .optional => [Step.opening ("if let Some(v) = &" ++ place)] ++ writeValue f (.ref "v") ++ [Step.close]
  | .repeated =>
    match f.base with
    | .child _ => [Step.opening ("for v in &" ++ place)] ++ writeValue f (.ref "v") ++ [Step.close]
    | .primitive p =>
      if p.isPackable then [
        Step.opening ("if !" ++ place ++ ".is_empty()"),
        Step.line ("writer.uint32(" ++ tagOf f .delimited ++ ").fork();"),
        Step.opening ("for v in &" ++ place),
        Step.line ("writer." ++ writeCall p (.ref "v") ++ ";"),
        Step.close,
        Step.line "writer.ldelim();",
        Step.close]
      else [Step.opening ("for v in &" ++ place)] ++ writeValue f (.ref "v") ++ [Step.close]
  | .map shape => [
    Step.opening ("for (key, value) in &" ++ place),
    Step.line ("writer.uint32(" ++ tagOf f .delimited ++ ").fork();"),
    Step.line (Piece.message shape.entryPath ++ " \x7b key: " ++
      (Value.ref "key").cloned shape.key.isCopy ++ ", value: " ++ entryValue shape f.base ++
      " \x7d.encode(writer)?;"),
    Step.line "writer.ldelim();",
    Step.close]
  | .union _ _ => []

def writeEncodeMember (s : Struct) : Member → List Step
  | .field f => writeEncodeField f
  | .union u =>
    [Step.opening ("match &self." ++ u.ident)] ++
    (s.variants u).flatMap (fun (variant, f) =>
      [Step.opening ("Some(" ++ u.symbol ++ "::" ++ variant ++ "(v)) =>")] ++
      writeValue f (.ref "v") ++
      [Step.close]) ++
    [Step.line "None => \x7b\x7d", Step.close]

def writeEncode (s : Struct) : List Step :=
  if s.fields.isEmpty then [
    Step.opening "fn encode(&self, _writer: &mut ::protoweave::Writer) -> Result<(), CodecError>",
    Step.line "Ok(())",
    Step.close]
  else
    [Step.opening "fn encode(&self, writer: &mut ::protoweave::Writer) -> Result<(), CodecError>"] ++
    s.members.flatMap (writeEncodeMember s) ++
    [Step.line "Ok(())", Step.close]

-- The choice that a variant belongs to.
def choiceOf (s : Struct) (choice : Nat) : Except CompileError Union :=
  match s.union? choice with
  | some u => .ok u
  | none => .error (.schema (.noChoice s.fullName choice))

def writeDecodeField (s : Struct) (f : Field) : Except CompileError (List Step) := do
  let place := "message." ++ f.ident
  let value := readValue f.base
  let body : List Step ←
    match f.container with
    | .required => pure [Step.line (place ++ " = " ++ value ++ ";")]
    | .optional =>
      pure ([Step.line (place ++ " = Some(" ++ value ++ ");")] ++
        (s.siblings f).map fun g => Step.line ("message." ++ g.ident ++ " = None;"))
    | .repeated =>
      pure (if f.base.isPackable then [
        Step.opening "if (tag & 7) == 2",
        Step.line "let run_end = reader.length()? + reader.index();",
        Step.opening "while reader.index() < run_end",
        Step.line (place ++ ".push(" ++ value ++ ");"),
        Step.close,
        Step.close,
        Step.opening "else",
        Step.line (place ++ ".push(" ++ value ++ ");"),
        Step.close]
      else [Step.line (place ++ ".push(" ++ value ++ ");")])
    | .map shape =>
      pure ([Step.line ("let entry = reader.message::<" ++ Piece.message shape.entryPath ++ ">()?;")] ++
        match shape.valueWrapped, shape.valueBoxed with
        | true, true => [
          Step.opening "if let Some(value) = entry.value",
          Step.line (place ++ ".insert(entry.key, " ++ "*value" ++ ");"),
          Step.close]
        | true, false => [
          Step.opening "if let Some(value) = entry.value",
          Step.line (place ++ ".insert(entry.key, " ++ "value" ++ ");"),
          Step.close]
        | false, _ => [Step.line (place ++ ".insert(entry.key, entry.value);")])
    | .union choice variant => do
      let u ← choiceOf s choice
      pure [Step.line ("message." ++ u.ident ++ " = Some(" ++ u.symbol ++ "::" ++ variant ++ "(" ++ value ++ "));")]
  return [Step.opening (Piece.fieldNumber f.schema.number ++ " =>")] ++ body ++ [Step.close]

def writeDecode (s : Struct) : Except CompileError (List Step) := do
  let signature : List Step := [
    Step.opening ("fn decode(reader: &mut ::protoweave::Reader<'_>, length: Option<usize>) -> " ++
      "Result<Self, CodecError>"),
    Step.line "let end = reader.end(length)?;"]
  if s.fields.isEmpty then
    return signature ++ [
      Step.opening "while reader.index() < end",
      Step.line "let tag = reader.uint32()?;",
      Step.line "reader.skip_field(tag)?;",
      Step.close,
      Step.line "Ok(Self::default())",
      Step.close]
  let arms ← s.fields.mapM (writeDecodeField s)
  return signature ++
    [Step.line "let mut message = Self::default();",
      Step.opening "while reader.index() < end",
      Step.line "let tag = reader.uint32()?;",
      Step.opening "match tag >> 3"] ++
    arms.flatten ++
    [Step.line "_ => reader.skip_field(tag)?,",
      Step.close,
      Step.close,
      Step.line "Ok(message)",
      Step.close]

def writeMessageImpl (s : Struct) : Except CompileError (List Step) := do
  return [Step.opening ("impl ::protoweave::Message for " ++ s.symbol)] ++ writeEncode s ++ [Step.blank] ++
    (← writeDecode s) ++ [Step.close]

-- The JSON codec

def writeFromJsonField (s : Struct) (f : Field) : Except CompileError (List Step) := do
  let place := "message." ++ f.ident
  let body : List Step ←
    match f.container with
    | .required => pure [Step.line (place ++ " = " ++ fromJson f.base "value" ++ ";")]
    | .optional =>
      pure ([Step.line (place ++ " = Some(" ++ fromJson f.base "value" ++ ");")] ++
        (s.siblings f).map fun g => Step.line ("message." ++ g.ident ++ " = None;"))
    | .repeated => pure [
      Step.opening "for item in json::array(value)?",
      Step.line (place ++ ".push(" ++ fromJson f.base "item" ++ ");"),
      Step.close]
    | .map _ => pure [
      Step.opening "for (key, item) in json::object(value)?",
      Step.line (place ++ ".insert(json::map_key(key)?, " ++ fromJson f.base "item" ++ ");"),
      Step.close]
    | .union choice variant => do
      let u ← choiceOf s choice
      pure [Step.line ("message." ++ u.ident ++ " = Some(" ++ u.symbol ++ "::" ++ variant ++ "(" ++
        fromJson f.base "value" ++ "));")]
  return [Step.opening ("if let Some(value) = json::field(object, " ++ Piece.literal f.jsonKey ++ ")")] ++ body ++
    [Step.close]

def writeInsert (f : Field) (value : Line) : Step :=
  Step.line ("object.insert(" ++ Piece.literal f.jsonKey ++ ".to_string(), " ++ value ++ ");")

def writeToJsonField (f : Field) : List Step :=
  let place := "self." ++ f.ident
  match f.container with
  | .required => [writeInsert f (toJson f.base (.place place))]
  | .optional => [
    Step.opening ("if let Some(v) = &" ++ place),
    writeInsert f (toJson f.base (.ref "v")),
    Step.close]
  | .repeated => [
    writeInsert f ("JsonValue::Array(" ++ place ++ ".iter().map(|v| " ++ toJson f.base (.ref "v") ++
      ").collect())")]
  | .map _ => [
    writeInsert f ("JsonValue::Object(" ++ place ++ ".iter().map(|(key, v)| (key.to_string(), " ++
      toJson f.base (.ref "v") ++ ")).collect())")]
  | .union _ _ => []

def writeToJsonMember (s : Struct) : Member → List Step
  | .field f => writeToJsonField f
  | .union u =>
    [Step.opening ("match &self." ++ u.ident)] ++
    (s.variants u).flatMap (fun (variant, f) => [
      Step.opening ("Some(" ++ u.symbol ++ "::" ++ variant ++ "(v)) =>"),
      writeInsert f (toJson f.base (.ref "v")),
      Step.close]) ++
    [Step.line "None => \x7b\x7d", Step.close]

def writeJsonImpl (s : Struct) : Except CompileError (List Step) := do
  let reading : List Step ←
    if s.fields.isEmpty then pure [Step.line "json::object(value)?;", Step.line "Ok(Self::default())"]
    else do
      let fields ← s.fields.mapM (writeFromJsonField s)
      pure ([Step.line "let object = json::object(value)?;", Step.line "let mut message = Self::default();"] ++
        fields.flatten ++ [Step.line "Ok(message)"])
  return [Step.opening ("impl ::protoweave::JsonMessage for " ++ s.symbol),
      Step.opening "fn from_json(value: &JsonValue) -> Result<Self, CodecError>"] ++
    reading ++
    [Step.close, Step.blank, Step.opening "fn to_json(&self) -> JsonValue"] ++
    (if s.fields.isEmpty then [Step.line "JsonValue::Object(JsonMap::new())"]
    else
      [Step.line "let mut object = JsonMap::new();"] ++
      s.members.flatMap (writeToJsonMember s) ++
      [Step.line "JsonValue::Object(object)"]) ++
    [Step.close, Step.close]

-- Partial items

def writePartialStruct (s : Struct) : List Step :=
  [Step.line "#[derive(Debug, Clone, Default, PartialEq)]"] ++ writeAttribute s.partialSymbol ++
  (if s.members.isEmpty then [Step.line ("pub struct " ++ s.partialSymbol ++ " \x7b\x7d")]
  else
    [Step.opening ("pub struct " ++ s.partialSymbol)] ++
    s.members.map (fun m => Step.line (partialMember m)) ++
    [Step.close]) ++
  s.unions.flatMap fun u =>
    [Step.blank,
      Step.line "#[derive(Debug, Clone, PartialEq)]",
      Step.line "#[allow(non_camel_case_types)]",
      Step.opening ("pub enum " ++ u.partialSymbol)] ++
    (s.variants u).map (fun (variant, f) => Step.line (variant ++ "(Option<" ++ f.base.partialType ++ ">),")) ++
    [Step.close]

def writeAssign (f : Field) : List Step := [
  Step.opening ("if let Some(value) = object." ++ f.ident),
  Step.line ("message." ++ f.ident ++ " = " ++ assigned f ++ ";"),
  Step.close]

def writeAssignMember (s : Struct) : Member → List Step
  | .field f => writeAssign f
  | .union u =>
    [Step.opening ("match object." ++ u.ident)] ++
    (s.variants u).flatMap (fun (variant, f) => [
      Step.opening ("Some(" ++ u.partialSymbol ++ "::" ++ variant ++ "(Some(value))) =>"),
      Step.line ("message." ++ u.ident ++ " = Some(" ++ u.symbol ++ "::" ++ variant ++ "(" ++
        convertPartial f.base "value" ++ "));"),
      Step.close]) ++
    [Step.line "_ => \x7b\x7d", Step.close]

def writeFromPartial (s : Struct) : List Step :=
  [Step.opening ("impl ::protoweave::FromPartial for " ++ s.symbol),
    Step.line ("type Partial = " ++ s.partialSymbol ++ ";"),
    Step.blank] ++
  if s.members.isEmpty then [
    Step.opening ("fn from_partial(_object: " ++ s.partialSymbol ++ ") -> Self"),
    Step.line "Self::default()",
    Step.close,
    Step.close]
  else
    [Step.opening ("fn from_partial(object: " ++ s.partialSymbol ++ ") -> Self"),
      Step.line "let mut message = Self::default();"] ++
    s.members.flatMap (writeAssignMember s) ++
    [Step.line "message", Step.close, Step.close]

-- Services

def writeTrait (s : Service) : List Step :=
  [Step.opening ("pub trait " ++ s.name ++ ": Send + Sync")] ++
  s.methods.map (fun m => Step.line (signature m ++ ";")) ++
  s.batches.flatMap (fun b => [
    Step.blank,
    Step.line ("/// Single-key form of `" ++ b.bulk ++ "`."),
    Step.opening (accessorSignature b),
    Step.opening "Box::pin(async move",
    Step.line ("let keys = vec![" ++ b.param ++ "];"),
    Step.line ("let request = " ++ b.requestPath ++ " \x7b " ++ b.inputField ++ ": keys.clone() \x7d;"),
    Step.line ("let response = self." ++ b.bulk ++ "(request).await?;"),
    Step.line ("::protoweave::batch::single(" ++ results b ++ ")"),
    Step.closing "\x7d)",
    Step.close]) ++
  [Step.close]

def writeLoader (b : BatchMethod) (captures : List String) (call : Line) : List Step :=
  [Step.opening ("let " ++ b.loaderField ++ " =")] ++
  captures.map (fun c : String => Step.line ("let " ++ c ++ " = " ++ c ++ ".clone();")) ++
  [Step.opening ("::protoweave::DataLoader::new(move |keys: Vec<" ++ b.keyType ++ ">|")] ++
  captures.map (fun c : String => Step.line ("let " ++ c ++ " = " ++ c ++ ".clone();")) ++
  [Step.opening "async move",
    Step.line ("let request = " ++ b.requestPath ++ " \x7b " ++ b.inputField ++ ": keys.clone() \x7d;"),
    Step.line (call ++ ".await.map(|response| " ++ results b ++ ")"),
    Step.close,
    Step.closing "\x7d)",
    Step.closing "\x7d;"]

def writeConstructorTail (s : Service) (fields : List String) : List Step :=
  [Step.opening "Self"] ++ fields.map (fun f : String => Step.line (f ++ ",")) ++
  s.batches.map (fun b => Step.line (b.loaderField ++ ",")) ++ [Step.close]

def writeOverrides (s : Service) : List Step :=
  s.batches.flatMap fun b => [
    Step.blank,
    Step.opening (accessorSignature b),
    Step.line ("Box::pin(async move \x7b self." ++ b.loaderField ++ ".load(" ++ b.param ++
      ").await.map_err(" ++ status ++ "::from) \x7d)"),
    Step.close]

def bulkResponse (s : Service) (b : BatchMethod) : Except CompileError String :=
  match s.methods.find? (·.name == b.method.name) with
  | some m => .ok m.response
  | none => .error (.unresolvedType b.method.name s.fullName)

def writeLoaderMembers (s : Service) : List Step :=
  s.batches.map fun b =>
    Step.line (b.loaderField ++ ": ::protoweave::DataLoader<" ++ b.keyType ++ ", " ++ b.valueType ++ ">,")

def writeLoaders (s : Service) (captures : List String) (call : BatchMethod → String → Line) :
    Except CompileError (List Step) := do
  let loaders ← s.batches.mapM fun b => do return writeLoader b captures (call b (← bulkResponse s b))
  return loaders.flatten

def writeMethods (s : Service) (body : Method → List Step) : List Step :=
  s.methods.zipIdx.flatMap fun (m, position) =>
    (if 0 < position then [Step.blank] else []) ++ [Step.opening (signature m)] ++ body m ++ [Step.close]

def writeRpcCall (s : Service) (m : Method) : List Step :=
  let target : Line := "self.rpc.as_ref(), " ++ s.constant ++ ", " ++ Piece.literal m.name
  match m.clientStreaming, m.serverStreaming with
  | false, false => [
    Step.line ("Box::pin(async move \x7b ::protoweave::rpc::unary(" ++ target ++ ", &request).await \x7d)")]
  | false, true => [Step.line ("::protoweave::rpc::server_streaming(" ++ target ++ ", &request)")]
  | true, false => [Step.line ("::protoweave::rpc::client_streaming(" ++ target ++ ", requests)")]
  | true, true => [Step.line ("::protoweave::rpc::bidi_streaming(" ++ target ++ ", requests)")]

def writeRpcClient (s : Service) : Except CompileError (List Step) := do
  let loaders ← writeLoaders s ["rpc"] fun b response =>
    "::protoweave::rpc::unary::<_, " ++ response ++ ">(rpc.as_ref(), " ++ s.constant ++ ", " ++
      Piece.literal b.method.name ++ ", &request)"
  return [Step.opening ("pub struct " ++ s.clientName),
      Step.line "rpc: ::std::sync::Arc<dyn ::protoweave::rpc::Rpc>,"] ++
    writeLoaderMembers s ++
    [Step.close, Step.blank, Step.opening ("impl " ++ s.clientName),
      Step.opening "pub fn new(rpc: ::std::sync::Arc<dyn ::protoweave::rpc::Rpc>) -> Self"] ++
    loaders ++ writeConstructorTail s ["rpc"] ++
    [Step.close, Step.close, Step.blank, Step.opening ("impl " ++ s.name ++ " for " ++ s.clientName)] ++
    writeMethods s (writeRpcCall s) ++
    writeOverrides s ++ [Step.close]

def writeDescriptors (s : Service) : List Step :=
  s.methods.flatMap fun m => [
    Step.opening ("pub const " ++ s.descriptor m.name ++
      ": ::protoweave::grpc::MethodDescriptor = ::protoweave::grpc::MethodDescriptor"),
    Step.line ("service: " ++ s.constant ++ ","),
    Step.line ("method: " ++ Piece.literal m.name ++ ","),
    Step.line ("client_streaming: " ++ truth m.clientStreaming ++ ","),
    Step.line ("server_streaming: " ++ truth m.serverStreaming ++ ","),
    Step.closing "\x7d;"]

def writeGrpcCall (s : Service) (m : Method) : List Step :=
  let descriptor := s.descriptor m.name
  match m.clientStreaming, m.serverStreaming with
  | false, false => [
    Step.line ("Box::pin(async move \x7b ::protoweave::grpc::unary(self.transport.as_ref(), " ++ descriptor ++
      ", &request, self.metadata.clone()).await \x7d)")]
  | false, true => [
    Step.line "::protoweave::grpc::server_streaming(",
    .indent,
    Step.line "::std::sync::Arc::clone(&self.transport),",
    Step.line (descriptor ++ ","),
    Step.line "&request,",
    Step.line "self.metadata.clone(),",
    Step.line "self.retry.clone(),",
    Step.closing ")"]
  | true, false => [
    Step.line ("::protoweave::grpc::client_streaming(self.transport.as_ref(), " ++ descriptor ++
      ", requests, self.metadata.clone())")]
  | true, true => [
    Step.line ("::protoweave::grpc::bidi_streaming(self.transport.as_ref(), " ++ descriptor ++
      ", requests, self.metadata.clone())")]

def writeGrpcClient (s : Service) : Except CompileError (List Step) := do
  let transport := "transport: ::std::sync::Arc<dyn ::protoweave::grpc::Transport>"
  let loaders ← writeLoaders s ["transport", "metadata"] fun b response =>
    "::protoweave::grpc::unary::<_, " ++ response ++ ">(transport.as_ref(), " ++ s.descriptor b.method.name ++
      ", &request, metadata)"
  return writeDescriptors s ++
    [Step.blank,
      Step.opening ("pub struct " ++ s.clientName),
      Step.line (transport ++ ","),
      Step.line ("metadata: " ++ metadata ++ ","),
      Step.line "retry: ::protoweave::RetryPolicy,"] ++
    writeLoaderMembers s ++
    [Step.close, Step.blank, Step.opening ("impl " ++ s.clientName),
      Step.opening ("pub fn new(" ++ transport ++ ") -> Self"),
      Step.line ("Self::with_options(transport, " ++ metadata ++ "::new(), ::protoweave::RetryPolicy::default())"),
      Step.close, Step.blank,
      Step.line "/// `metadata` is sent with every call; `retry` governs server streams.",
      Step.opening ("pub fn with_options(" ++ transport ++ ", metadata: " ++ metadata ++
        ", retry: ::protoweave::RetryPolicy) -> Self")] ++
    loaders ++ writeConstructorTail s ["transport", "metadata", "retry"] ++
    [Step.close, Step.close, Step.blank, Step.opening ("impl " ++ s.name ++ " for " ++ s.clientName)] ++
    writeMethods s (writeGrpcCall s) ++
    writeOverrides s ++ [Step.close]

def writeService (options : Options) (s : Service) : Except CompileError (List Step) := do
  let client : List Step ←
    match options.client with
    | .none => pure []
    | .rpc => pure (Step.blank :: (← writeRpcClient s))
    | .grpc => pure (Step.blank :: (← writeGrpcClient s))
  return [Step.line ("pub const " ++ s.constant ++ ": &str = " ++ Piece.literal s.fullName ++ ";"), Step.blank] ++
    writeTrait s ++ client

-- Files

def writeMessage (options : Options) (s : Struct) : Except CompileError (List Step) := do
  let binary : List Step ← if options.outputEncode then pure (Step.blank :: (← writeMessageImpl s)) else pure []
  let json : List Step ← if options.outputJson then pure (Step.blank :: (← writeJsonImpl s)) else pure []
  return writeStruct s ++ [Step.blank] ++ writeDefault s ++ binary ++ json ++
    if options.outputPartial then Step.blank :: writePartialStruct s ++ [Step.blank] ++ writeFromPartial s else []

def writeDeclared (ctx : Context) (d : Schema.Declared) : Except CompileError (List Step) :=
  match d.declaration with
  | .enum e => .ok (writeEnum ctx.options (Enumeration.ofSchema d.symbol e))
  | .message m => do writeMessage ctx.options (← Struct.ofMessage ctx d.fullName d.symbol m)

-- The helpers are those that have been named before the end of the declarations and services.
def writeFile (ctx : Context) : Except CompileError (List Step) := do
  let declared ← ctx.file.declarations.mapM fun d => do return Step.blank :: (← writeDeclared ctx d)
  let services ← ctx.file.services.mapM fun s => do
    return Step.blank :: (← writeService ctx.options (← Service.ofSchema ctx s))
  let items := writeHeader ctx ++ (declared ++ services).flatten
  let helpers := Helper.needed ctx.options.long (marksOf items)
  let timestamp ← timestampPath ctx helpers
  return items ++ helpers.flatMap fun h => Step.blank :: fragmentSteps (h.text ctx.options.long timestamp)

def fileText (ctx : Context) : Except CompileError String := do
  return (Writer.empty.run (← writeFile ctx)).text

-- The index of modules

mutual

def writeModule (name : String) : Module → List Step
  | .file =>
    let ident := Naming.moduleIdent name
    (if ident = name then [] else [Step.line ("#[path = " ++ Piece.literal (name ++ ".rs") ++ "]")]) ++
      [Step.line ("pub mod " ++ ident ++ ";")]
  | .directory children =>
    let ident := Naming.moduleIdent name
    (if ident = name then [] else [Step.line ("#[path = " ++ Piece.literal name ++ "]")]) ++
      [Step.opening ("pub mod " ++ ident)] ++ writeModules children ++ [Step.close]

def writeModules : List (String × Module) → List Step
  | [] => []
  | (name, m) :: rest => writeModule name m ++ writeModules rest

end

def writeIndex? (names : List String) : Option (List Step) := do
  let modules ← Module.ofFiles? names
  return [Step.line "// Code generated by protoc-gen-protoweave. DO NOT EDIT.", Step.blank] ++ writeModules modules

def indexText? (names : List String) : Option String :=
  (writeIndex? names).map fun steps => (Writer.empty.run steps).text

end Protogen.Code
