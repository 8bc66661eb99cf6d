import Protogen.Code.Writer
import Protogen.Target.Struct

set_option autoImplicit false

namespace Protogen.Code

open Target (Struct Member Union Field Container)

def nameAttribute (symbol : String) : List Block :=
  if symbol.toList.contains '_' then [.line "#[allow(non_camel_case_types)]"] else []

def structWith (symbol : String) (members : List Block) : Block :=
  if members.isEmpty then .line ("pub struct " ++ symbol ++ " \x7b\x7d")
  else block ("pub struct " ++ symbol) members

def choiceItem (symbol : String) (variants : List Block) : List Block := [
  .blank,
  .line "#[derive(Debug, Clone, PartialEq)]",
  .line "#[allow(non_camel_case_types)]",
  block ("pub enum " ++ symbol) variants]

def declaredMember : Member → String
  | .field f => "pub " ++ f.ident ++ ": " ++ f.type ++ ","
  | .union u => "pub " ++ u.ident ++ ": Option<" ++ u.symbol ++ ">,"

def structItem (s : Struct) : List Block :=
  [.line "#[derive(Debug, Clone, PartialEq)]"] ++ nameAttribute s.symbol ++
  [structWith s.symbol (s.members.map fun m => .line (declaredMember m))] ++
  s.unions.flatMap fun u =>
    choiceItem u.symbol ((s.variants u).map fun (variant, f) =>
      .line (variant ++ "(" ++ f.base.type ++ "),"))

def unsetValue (f : Field) : String :=
  match f.container with
  | .required => f.base.zero
  | .optional | .union _ _ => "None"
  | .repeated => "Vec::new()"
  | .map _ => "::std::collections::BTreeMap::new()"

def unsetMember : Member → String
  | .field f => f.ident ++ ": " ++ unsetValue f ++ ","
  | .union u => u.ident ++ ": None,"

def defaultImpl (s : Struct) : List Block :=
  let members : List Block := s.members.map fun m => .line (unsetMember m)
  [block ("impl Default for " ++ s.symbol) [
    block "fn default() -> Self" [
      if members.isEmpty then .line "Self \x7b\x7d" else block "Self" members]]]

end Protogen.Code
