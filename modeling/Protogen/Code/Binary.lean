import Protogen.Code.Writer
import Protogen.Target.Struct

set_option autoImplicit false

namespace Protogen.Code

open Schema (Kind)
open Target (Struct Member Union Field Container MapShape Base Child Primitive)

def tagOf (f : Field) (t : Wire.WireType) : Piece :=
  .tag (f.schema.tag t.number)

def writeCall (p : Primitive) (v : Value) : Line :=
  match p with
  | .scalar .string => Piece.method "string" ++ "(" ++ v.borrowed ++ ")"
  | .scalar .bytes => Piece.method "bytes" ++ "(" ++ v.borrowed ++ ")"
  | .scalar k | .long k .number => Piece.method k.method ++ "(" ++ v.copied ++ ")"
  | .long k .string =>
    Piece.method k.method ++ "(" ++ Piece.helper .longFromString ++ "(" ++ v.borrowed ++ ")?)"
  | .long k .bigInt =>
    Piece.method k.method ++ "(" ++ Piece.helper .longFromBigint ++ "(" ++ v.borrowed ++ ")?)"
  | .enum _ byName _ _ =>
    Piece.method "int32" ++ "(" ++ (if byName then v.receiver ++ ".to_number()" else v.copied) ++ ")"

def childMessage (c : Child) (v : Value) : Line :=
  match c with
  | .message _ _ _ | .timestamp _ _ .timestamp => v.receiver
  | .wrapper path inner => Piece.message path ++ " \x7b value: " ++ v.cloned inner.isCopy ++ " \x7d"
  | .timestamp _ _ .date => Piece.helper .timestampFromDate ++ "(" ++ v.borrowed ++ ")"
  | .timestamp _ _ .string => Piece.helper .timestampFromIso ++ "(" ++ v.borrowed ++ ")?"

def delimited (f : Field) (body : List Block) : List Block :=
  [.line ("writer.uint32(" ++ tagOf f .delimited ++ ").fork();")] ++ body ++
    [.line "writer.ldelim();"]

def writeRecord (f : Field) (v : Value) : List Block :=
  match f.base with
  | .child c => delimited f [.line (childMessage c v ++ ".encode(writer)?;")]
  | .primitive p =>
    [.line ("writer.uint32(" ++ tagOf f p.wireType ++ ")." ++ writeCall p v ++ ";")]

-- The condition under which a value is not the one that an absent field has.
def differsFromZero (p : Primitive) (place : String) : String :=
  match p with
  | .scalar .string | .scalar .bytes => "!" ++ place ++ ".is_empty()"
  | .scalar .bool => place
  | .scalar .float | .scalar .double => place ++ " != 0.0"
  | .long _ .string => "!" ++ place ++ ".is_empty() && " ++ place ++ " != \"0\""
  | .long _ .bigInt => place ++ ".sign() != ::protoweave::num_bigint::Sign::NoSign"
  | .scalar _ | .long _ .number => place ++ " != 0"
  | .enum _ _ _ _ => place ++ " != " ++ p.zero

def entryValue (shape : MapShape) (b : Base) : String :=
  let value := (Value.ref "value").cloned b.isCopy
  let value := if shape.valueBoxed then "Box::new(" ++ value ++ ")" else value
  if shape.valueWrapped then "Some(" ++ value ++ ")" else value

def encodeField (f : Field) : List Block :=
  let place := "self." ++ f.ident
  match f.container with
  | .required =>
    match f.base with
    | .child _ => writeRecord f (.place place)
    | .primitive p => [block ("if " ++ differsFromZero p place) (writeRecord f (.place place))]
  | .optional => [block ("if let Some(v) = &" ++ place) (writeRecord f (.ref "v"))]
  | .repeated =>
    let each := fun body => block ("for v in &" ++ place) body
    match f.base with
    | .child _ => [each (writeRecord f (.ref "v"))]
    | .primitive p =>
      if p.isPackable then
        [block ("if !" ++ place ++ ".is_empty()") (delimited f [
          each [.line ("writer." ++ writeCall p (.ref "v") ++ ";")]])]
      else [each (writeRecord f (.ref "v"))]
  | .map shape =>
    [block ("for (key, value) in &" ++ place) (delimited f [
      .line (Piece.message shape.entryPath ++ " \x7b key: " ++
        (Value.ref "key").cloned shape.key.isCopy ++ ", value: " ++ entryValue shape f.base ++
        " \x7d.encode(writer)?;")])]
  | .union _ _ => []

-- Matches a choice that is one member; `arm` gives what is done for a variant.
def matchUnion (s : Struct) (u : Union) (arm : Field → List Block) : Block :=
  block ("match &self." ++ u.ident) (
    (s.variants u).map (fun (variant, f) =>
      block ("Some(" ++ u.symbol ++ "::" ++ variant ++ "(v)) =>") (arm f)) ++
    [.line "None => \x7b\x7d"])

def encodeMember (s : Struct) : Member → List Block
  | .field f => encodeField f
  | .union u => [matchUnion s u fun f => writeRecord f (.ref "v")]

def encodeFn (s : Struct) : Block :=
  if s.fields.isEmpty then
    block "fn encode(&self, _writer: &mut ::protoweave::Writer) -> Result<(), CodecError>" [
      .line "Ok(())"]
  else
    block "fn encode(&self, writer: &mut ::protoweave::Writer) -> Result<(), CodecError>" (
      s.members.flatMap (encodeMember s) ++ [.line "Ok(())"])

def readValue (b : Base) : Line :=
  let message := fun path : String => ("reader.message::<" ++ Piece.message path ++ ">()?" : Line)
  match b with
  | .primitive (.scalar k) | .primitive (.long k .number) => "reader." ++ Piece.method k.method ++ "()?"
  | .primitive (.long k .string) => "reader." ++ Piece.method k.method ++ "()?.to_string()"
  | .primitive (.long k .bigInt) =>
    "::protoweave::num_bigint::BigInt::from(reader." ++ Piece.method k.method ++ "()?)"
  | .primitive (.enum path byName _ _) =>
    if byName then path ++ "::from_number(reader." ++ Piece.method "int32" ++ "()?)"
    else "reader." ++ Piece.method "int32" ++ "()?"
  | .child (.message path _ boxed) =>
    if boxed then "Box::new(" ++ message path ++ ")" else message path
  | .child (.wrapper path _) => message path ++ ".value"
  | .child (.timestamp path _ .timestamp) => message path
  | .child (.timestamp path _ .date) =>
    Piece.helper .dateFromTimestamp ++ "(&" ++ message path ++ ")?"
  | .child (.timestamp path _ .string) =>
    Piece.helper .isoFromTimestamp ++ "(&" ++ message path ++ ")?"

-- Clears the other fields of the choice that a field belongs to.
def clearSiblings (s : Struct) (f : Field) : List Block :=
  (s.siblings f).map fun g => .line ("message." ++ g.ident ++ " = None;")

def setUnion (s : Struct) (choice : Nat) (variant : String) (value : Line) : List Block :=
  match s.union? choice with
  | some u =>
    [.line ("message." ++ u.ident ++ " = Some(" ++ u.symbol ++ "::" ++ variant ++ "(" ++ value ++
      "));")]
  | none => []

def decodeArm (s : Struct) (f : Field) : Block :=
  let place := "message." ++ f.ident
  let push : Block := .line (place ++ ".push(" ++ readValue f.base ++ ");")
  block (Piece.fieldNumber f.schema.number ++ " =>") (
    match f.container with
    | .required => [.line (place ++ " = " ++ readValue f.base ++ ";")]
    | .optional => .line (place ++ " = Some(" ++ readValue f.base ++ ");") :: clearSiblings s f
    | .repeated =>
      if f.base.isPackable then [
        block "if (tag & 7) == 2" [
          .line "let run_end = reader.length()? + reader.index();",
          block "while reader.index() < run_end" [push]],
        block "else" [push]]
      else [push]
    | .map shape => [
      .line ("let entry = reader.message::<" ++ Piece.message shape.entryPath ++ ">()?;"),
      if shape.valueWrapped then
        block "if let Some(value) = entry.value" [
          .line (place ++ ".insert(entry.key, " ++ (if shape.valueBoxed then "*value" else "value") ++
            ");")]
      else .line (place ++ ".insert(entry.key, entry.value);")]
    | .union choice variant => setUnion s choice variant (readValue f.base))

def decodeFn (s : Struct) : Block :=
  block ("fn decode(reader: &mut ::protoweave::Reader<'_>, length: Option<usize>) -> " ++
      "Result<Self, CodecError>") (
    .line "let end = reader.end(length)?;" ::
    if s.fields.isEmpty then [
      block "while reader.index() < end" [
        .line "let tag = reader.uint32()?;",
        .line "reader.skip_field(tag)?;"],
      .line "Ok(Self::default())"]
    else [
      .line "let mut message = Self::default();",
      block "while reader.index() < end" [
        .line "let tag = reader.uint32()?;",
        block "match tag >> 3" (
          s.fields.map (decodeArm s) ++ [.line "_ => reader.skip_field(tag)?,"])],
      .line "Ok(message)"])

def messageImpl (s : Struct) : List Block :=
  [block ("impl ::protoweave::Message for " ++ s.symbol) [encodeFn s, .blank, decodeFn s]]

end Protogen.Code
