import Protogen.Target.Batch

set_option autoImplicit false

namespace Protogen.Target

structure Method where
  name : String
  ident : String
  request : String
  response : String
  clientStreaming : Bool
  serverStreaming : Bool

structure Service where
  name : String
  -- The name with the package in front, as calls give it.
  fullName : String
  methods : List Method
  batches : List BatchMethod

namespace Service

def ofSchema (ctx : Context) (s : Schema.Service) : Except CompileError Service := do
  let methods ← s.methods.mapM fun m => do
    return {
      name := m.name
      ident := Naming.fieldIdent m.name
      request := ← ctx.path m.input ""
      response := ← ctx.path m.output ""
      clientStreaming := m.clientStreaming
      serverStreaming := m.serverStreaming : Method }
  return {
    name := s.name
    fullName := if ctx.file.package.isEmpty then s.name else ctx.file.package ++ "." ++ s.name
    methods
    batches := ← BatchMethod.ofService ctx s }

def constant (s : Service) : String :=
  Naming.upperSnake s.name ++ "_SERVICE_NAME"

def descriptor (s : Service) (method : String) : String :=
  Naming.upperSnake s.name ++ "_" ++ Naming.upperSnake method ++ "_DESC"

def clientName (s : Service) : String :=
  s.name ++ "ClientImpl"

def bulkResponse (s : Service) (b : BatchMethod) : String :=
  ((s.methods.find? (·.name == b.method.name)).map (·.response)).getD ""

end Service

end Protogen.Target
