import Protogen.Code.Binary

set_option autoImplicit false

namespace Protogen.Code

open Schema (Kind)
open Target (Struct Member Union Field Container Base Child Primitive)

def longReader (k : Kind) : String :=
  if k.isUnsigned then "uint64" else "int64"

def fromJsonValue (p : Primitive) (value : String) : Line :=
  match p with
  | .scalar .bytes => Piece.helper .bytesFromBase64 ++ "(json::str(" ++ value ++ ")?)?"
  | .scalar k =>
    let reader :=
      match k with
      | .double => "double"
      | .float => "float"
      | .bool => "bool"
      | .string => "string"
      | .uint32 | .fixed32 => "uint32"
      | _ => "int32"
    "json::" ++ reader ++ "(" ++ value ++ ")?"
  | .long _ .number => Piece.helper .longFromJson ++ "(" ++ value ++ ")?"
  | .long k .string => "json::" ++ longReader k ++ "(" ++ value ++ ")?.to_string()"
  | .long k .bigInt =>
    "::protoweave::num_bigint::BigInt::from(json::" ++ longReader k ++ "(" ++ value ++ ")?)"
  | .enum path _ _ _ => path ++ "::from_json(" ++ value ++ ")?"

def fromJson (b : Base) (value : String) : Line :=
  match b with
  | .primitive p | .child (.wrapper _ p) => fromJsonValue p value
  | .child (.message path _ boxed) =>
    let message := path ++ "::from_json(" ++ value ++ ")?"
    if boxed then "Box::new(" ++ message ++ ")" else message
  | .child (.timestamp _ _ form) =>
    let helper : Helper :=
      match form with
      | .timestamp => .timestampFromJson
      | .date => .dateFromJson
      | .string => .isoFromJson
    Piece.helper helper ++ "(" ++ value ++ ")?"

def toJsonValue (p : Primitive) (v : Value) : Line :=
  match p with
  | .scalar .double => "json::from_f64(" ++ v.copied ++ ")"
  | .scalar .float => "json::from_f32(" ++ v.copied ++ ")"
  | .scalar .bytes => "JsonValue::from(" ++ Piece.helper .base64FromBytes ++ "(" ++ v.borrowed ++ "))"
  | .scalar .string | .long _ .string => "JsonValue::from(" ++ v.receiver ++ ".clone())"
  | .scalar _ | .long _ .number => "JsonValue::from(" ++ v.copied ++ ")"
  | .long _ .bigInt => "JsonValue::from(" ++ v.receiver ++ ".to_string())"
  | .enum path byName _ _ =>
    if byName then v.receiver ++ ".to_json()" else path ++ "::to_json(" ++ v.copied ++ ")"

def toJson (b : Base) (v : Value) : Line :=
  match b with
  | .primitive p | .child (.wrapper _ p) => toJsonValue p v
  | .child (.message _ _ _) => v.receiver ++ ".to_json()"
  | .child (.timestamp _ _ .timestamp) => Piece.helper .timestampToJson ++ "(" ++ v.borrowed ++ ")"
  | .child (.timestamp _ _ .date) => Piece.helper .dateToJson ++ "(" ++ v.borrowed ++ ")"
  | .child (.timestamp _ _ .string) => "JsonValue::from(" ++ v.receiver ++ ".clone())"

def fromJsonField (s : Struct) (f : Field) : Block :=
  let place := "message." ++ f.ident
  block ("if let Some(value) = json::field(object, " ++ Piece.literal f.jsonKey ++ ")") (
    match f.container with
    | .required => [.line (place ++ " = " ++ fromJson f.base "value" ++ ";")]
    | .optional => .line (place ++ " = Some(" ++ fromJson f.base "value" ++ ");") :: clearSiblings s f
    | .repeated => [
      block "for item in json::array(value)?" [
        .line (place ++ ".push(" ++ fromJson f.base "item" ++ ");")]]
    | .map _ => [
      block "for (key, item) in json::object(value)?" [
        .line (place ++ ".insert(json::map_key(key)?, " ++ fromJson f.base "item" ++ ");")]]
    | .union choice variant => setUnion s choice variant (fromJson f.base "value"))

def insertKey (f : Field) (value : Line) : Block :=
  .line ("object.insert(" ++ Piece.literal f.jsonKey ++ ".to_string(), " ++ value ++ ");")

def toJsonField (f : Field) : List Block :=
  let place := "self." ++ f.ident
  match f.container with
  | .required => [insertKey f (toJson f.base (.place place))]
  | .optional => [
    block ("if let Some(v) = &" ++ place) [insertKey f (toJson f.base (.ref "v"))]]
  | .repeated => [
    insertKey f ("JsonValue::Array(" ++ place ++ ".iter().map(|v| " ++ toJson f.base (.ref "v") ++
      ").collect())")]
  | .map _ => [
    insertKey f ("JsonValue::Object(" ++ place ++ ".iter().map(|(key, v)| (key.to_string(), " ++
      toJson f.base (.ref "v") ++ ")).collect())")]
  | .union _ _ => []

def fromJsonFn (s : Struct) : Block :=
  block "fn from_json(value: &JsonValue) -> Result<Self, CodecError>" (
    if s.fields.isEmpty then [
      .line "json::object(value)?;",
      .line "Ok(Self::default())"]
    else
      [.line "let object = json::object(value)?;", .line "let mut message = Self::default();"] ++
        s.fields.map (fromJsonField s) ++ [.line "Ok(message)"])

def toJsonMember (s : Struct) : Member → List Block
  | .field f => toJsonField f
  | .union u => [matchUnion s u fun f => [insertKey f (toJson f.base (.ref "v"))]]

def toJsonFn (s : Struct) : Block :=
  block "fn to_json(&self) -> JsonValue" (
    if s.fields.isEmpty then [.line "JsonValue::Object(JsonMap::new())"]
    else
      [.line "let mut object = JsonMap::new();"] ++
        s.members.flatMap (toJsonMember s) ++
        [.line "JsonValue::Object(object)"])

def jsonImpl (s : Struct) : List Block :=
  [block ("impl ::protoweave::JsonMessage for " ++ s.symbol) [fromJsonFn s, .blank, toJsonFn s]]

end Protogen.Code
