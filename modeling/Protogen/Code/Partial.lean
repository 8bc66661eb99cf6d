import Protogen.Code.Struct

set_option autoImplicit false

namespace Protogen.Code

open Target (Struct Member Union Field Container Base Child)

def convertPartial (b : Base) (value : String) : String :=
  match b with
  | .child (.message path _ true) => "Box::new(" ++ path ++ "::from_partial(*" ++ value ++ "))"
  | .child (.message path _ false) | .child (.timestamp path _ .timestamp) =>
    path ++ "::from_partial(" ++ value ++ ")"
  | _ => value

def partialMember : Member → String
  | .field f => "pub " ++ f.ident ++ ": " ++ f.partialType ++ ","
  | .union u => "pub " ++ u.ident ++ ": Option<" ++ u.partialSymbol ++ ">,"

def partialItem (s : Struct) : List Block :=
  [.line "#[derive(Debug, Clone, Default, PartialEq)]"] ++ nameAttribute s.partialSymbol ++
  [structWith s.partialSymbol (s.members.map fun m => .line (partialMember m))] ++
  s.unions.flatMap fun u =>
    choiceItem u.partialSymbol ((s.variants u).map fun (variant, f) =>
      .line (variant ++ "(Option<" ++ f.base.partialType ++ ">),"))

def assigned (f : Field) : String :=
  match f.container with
  | .required => convertPartial f.base "value"
  | .optional => "Some(" ++ convertPartial f.base "value" ++ ")"
  | .repeated =>
    if f.base.convertsPartial then
      "value.into_iter().map(|v| " ++ convertPartial f.base "v" ++ ").collect()"
    else "value"
  | .map _ =>
    if f.base.convertsPartial then
      "value.into_iter().map(|(key, v)| (key, " ++ convertPartial f.base "v" ++ ")).collect()"
    else "value"
  | .union _ _ => "value"

def assign (f : Field) : Block :=
  block ("if let Some(value) = object." ++ f.ident) [
    .line ("message." ++ f.ident ++ " = " ++ assigned f ++ ";")]

def assignUnion (s : Struct) (u : Union) : Block :=
  block ("match object." ++ u.ident) (
    (s.variants u).map (fun (variant, f) =>
      block ("Some(" ++ u.partialSymbol ++ "::" ++ variant ++ "(Some(value))) =>") [
        .line ("message." ++ u.ident ++ " = Some(" ++ u.symbol ++ "::" ++ variant ++ "(" ++
          convertPartial f.base "value" ++ "));")]) ++
    [.line "_ => \x7b\x7d"])

def assignMember (s : Struct) : Member → Block
  | .field f => assign f
  | .union u => assignUnion s u

def fromPartialImpl (s : Struct) : List Block :=
  let members := s.members
  [block ("impl ::protoweave::FromPartial for " ++ s.symbol) [
    .line ("type Partial = " ++ s.partialSymbol ++ ";"),
    .blank,
    if members.isEmpty then
      block ("fn from_partial(_object: " ++ s.partialSymbol ++ ") -> Self") [.line "Self::default()"]
    else
      block ("fn from_partial(object: " ++ s.partialSymbol ++ ") -> Self") (
        .line "let mut message = Self::default();" ::
        members.map (assignMember s) ++
        [.line "message"])]]

end Protogen.Code
