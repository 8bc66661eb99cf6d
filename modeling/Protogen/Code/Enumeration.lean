import Protogen.Code.Struct
import Protogen.Compile.Options
import Protogen.Target.Enumeration

set_option autoImplicit false

namespace Protogen.Code

open Target (Enumeration)

def number (n : Int32) : String :=
  String.ofList (Number.intText n.toInt)

def nameFn (symbol : String) (names : List (String × String)) : Block :=
  block "pub fn as_str_name(&self) -> &'static str" [
    block "match self" (names.map fun (variant, name) =>
      .line (symbol ++ "::" ++ variant ++ " => " ++ Piece.literal name ++ ","))]

def nameArms (e : Enumeration) (value : Target.Variant → String) : List Block :=
  e.variants.flatMap fun v => v.aliases.map fun name =>
    .line (Piece.literal name ++ " => " ++ value v ++ ",")

def derives : Block :=
  .line "#[derive(Debug, Clone, Copy, PartialEq, Eq, Hash, PartialOrd, Ord)]"

def numberEnum (e : Enumeration) (json : EnumJson) : List Block :=
  [derives, .line "#[repr(i32)]"] ++ nameAttribute e.symbol ++ [
    block ("pub enum " ++ e.symbol) (e.variants.map fun v =>
      .line (v.name ++ " = " ++ number v.number ++ ",")),
    .blank,
    block ("impl " ++ e.symbol) [
      nameFn e.symbol (e.variants.map fun v => (v.name, v.written)),
      .blank,
      block ("pub fn from_i32(value: i32) -> Option<" ++ e.symbol ++ ">") [
        block "match value" (
          e.variants.map (fun v =>
            .line (number v.number ++ " => Some(" ++ e.symbol ++ "::" ++ v.name ++ "),")) ++
          [.line "_ => None,"])],
      .blank,
      .line "/// Accepts a value name or a number.",
      block "pub fn from_json(value: &JsonValue) -> Result<i32, CodecError>" [
        block "match value" [
          .block "JsonValue::String(name) => match name.as_str()" (
            nameArms e (fun v => "Ok(" ++ number v.number ++ ")") ++
            [.line ("other => other.parse().map_err(|_| CodecError::InvalidEnumValue " ++
              Line.braced ("enum_name: \"" ++ e.symbol ++ "\", value: other.to_string()") ++
              "),")]) "\x7d,",
          .line "other => json::int32(other),"]],
      .blank,
      block "pub fn to_json(value: i32) -> JsonValue" [
        match json with
        | .name =>
          block ("match " ++ e.symbol ++ "::from_i32(value)") [
            .line "Some(known) => JsonValue::from(known.as_str_name()),",
            .line "None => JsonValue::from(value),"]
        | .number => .line "JsonValue::from(value)"]]]

def variantEnum (e : Enumeration) (json : EnumJson) : List Block :=
  let unknown := e.symbol ++ "::" ++ Enumeration.fallback
  [derives] ++ nameAttribute e.symbol ++ [
    block ("pub enum " ++ e.symbol) (e.numbers.map fun (variant, _) => .line (variant ++ ",")),
    .blank,
    block ("impl " ++ e.symbol) [
      block ("pub fn from_number(value: i32) -> " ++ e.symbol) [
        block "match value" (
          e.variants.map (fun v =>
            .line (number v.number ++ " => " ++ e.symbol ++ "::" ++ v.name ++ ",")) ++
          [.line ("_ => " ++ unknown ++ ",")])],
      .blank,
      block "pub fn to_number(self) -> i32" [
        block "match self" (e.numbers.map fun (variant, n) =>
          .line (e.symbol ++ "::" ++ variant ++ " => " ++ number n ++ ","))],
      .blank,
      nameFn e.symbol e.names,
      .blank,
      .line "/// Unknown names and numbers become `Unrecognized`.",
      block ("pub fn from_json(value: &JsonValue) -> Result<" ++ e.symbol ++ ", CodecError>") [
        block "match value" [
          .block "JsonValue::String(name) => Ok(match name.as_str()" (
            nameArms e (fun v => e.symbol ++ "::" ++ v.name) ++
            [.line ("other => other.parse().map(" ++ e.symbol ++ "::from_number).unwrap_or(" ++
              unknown ++ "),")]) "\x7d),",
          .line ("other => json::int32(other).map(" ++ e.symbol ++ "::from_number),")]],
      .blank,
      block "pub fn to_json(self) -> JsonValue" [
        match json with
        | .name => .line "JsonValue::from(self.as_str_name())"
        | .number => .line "JsonValue::from(self.to_number())"]]]

def enumItem (options : Options) (e : Enumeration) : List Block :=
  if options.stringEnums then variantEnum e options.jsonEnums else numberEnum e options.jsonEnums

end Protogen.Code
