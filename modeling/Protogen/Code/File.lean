import Protogen.Code.Enumeration
import Protogen.Code.Helper
import Protogen.Code.Json
import Protogen.Code.Partial
import Protogen.Code.Service

set_option autoImplicit false

namespace Protogen.Code

open Target (Context Struct Enumeration Service)

def header (ctx : Context) : List Block := [
  .line "// Code generated by protoc-gen-protoweave. DO NOT EDIT.",
  .line ("// source: " ++ ctx.file.name),
  .blank,
  .line "#![allow(clippy::all, dead_code)]",
  .blank,
  .line "#[allow(unused_imports)]",
  .line ("use ::protoweave::\x7bjson, CodecError, FromPartial as _, JsonMessage as _, " ++
    "Message as _\x7d;"),
  .line "#[allow(unused_imports)]",
  .line "use ::protoweave::serde_json::\x7bMap as JsonMap, Value as JsonValue\x7d;",
  .blank,
  .line ("pub const PROTOBUF_PACKAGE: &str = " ++ Piece.literal ctx.file.package ++ ";")]

def messageItems (options : Options) (s : Struct) : List Block :=
  structItem s ++ [.blank] ++ defaultImpl s ++
    (if options.outputEncode then .blank :: messageImpl s else []) ++
    (if options.outputJson then .blank :: jsonImpl s else []) ++
    (if options.outputPartial then .blank :: partialItem s ++ [.blank] ++ fromPartialImpl s else [])

def declaredItems (ctx : Context) (d : Schema.Declared) : Except CompileError (List Block) :=
  match d.declaration with
  | .enum e => .ok (enumItem ctx.options (Enumeration.ofSchema d.symbol e))
  | .message m => do return messageItems ctx.options (← Struct.ofMessage ctx d.fullName d.symbol m)

def fileItems (ctx : Context) : Except CompileError (List Block) := do
  let declared ← ctx.file.declarations.mapM (declaredItems ctx)
  let services ← ctx.file.services.mapM fun s => do
    return serviceItems ctx.options (← Service.ofSchema ctx s)
  return (declared ++ services).flatMap (Block.blank :: ·)

-- The path of the timestamp message, if a helper names it.
def timestampPath (ctx : Context) (helpers : List Helper) : Except CompileError String :=
  if helpers.any Helper.needsTimestamp then ctx.path Target.timestampName "" else .ok ""

def helperItems (ctx : Context) (items : List Block) : Except CompileError (List Block) := do
  let long := ctx.options.long
  let helpers := Helper.needed long (helpersOf items)
  let timestamp ← timestampPath ctx helpers
  return helpers.flatMap fun h => .blank :: h.code long (Helper.fillMarks long timestamp)

def fileCode (ctx : Context) : Except CompileError (List Block) := do
  let items ← fileItems ctx
  return header ctx ++ items ++ (← helperItems ctx items)

end Protogen.Code
