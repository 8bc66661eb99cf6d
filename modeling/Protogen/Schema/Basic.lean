set_option autoImplicit false

namespace Protogen.Schema

inductive Syntax where
  | proto2
  | proto3
  deriving DecidableEq

inductive Label where
  | optional
  | required
  | repeated
  deriving DecidableEq

inductive Kind where
  | double
  | float
  | int64
  | uint64
  | int32
  | fixed64
  | fixed32
  | bool
  | string
  | group
  | message
  | bytes
  | uint32
  | enum
  | sfixed32
  | sfixed64
  | sint32
  | sint64
  deriving DecidableEq

structure Field where
  name : String
  jsonName : String
  number : Int32
  kind : Kind
  label : Label
  -- The full name of the type, for messages, groups and enumerations.
  typeName : Option String
  /-- The choice of the message that the field belongs to. -/
  choice : Option Nat
  -- Whether the field is in a choice of its own, so that it can be absent.
  explicitPresence : Bool
  deriving DecidableEq

def Field.isRepeated (f : Field) : Bool :=
  f.label == .repeated

structure EnumValue where
  name : String
  number : Int32
  deriving DecidableEq

structure Enum where
  name : String
  values : List EnumValue
  deriving DecidableEq

-- The value numbered zero, or else the first.
def Enum.default? (e : Enum) : Option EnumValue :=
  e.values.find? (·.number == 0) <|> e.values.head?

structure Message where
  name : String
  fields : List Field
  -- The names of the choices between fields.
  choices : List String
  messages : List Message
  enums : List Enum
  -- Whether the message is an entry of a map.
  isMapEntry : Bool

structure Method where
  name : String
  input : String
  output : String
  clientStreaming : Bool
  serverStreaming : Bool
  deriving DecidableEq

structure Service where
  name : String
  methods : List Method
  deriving DecidableEq

structure File where
  name : String
  package : String
  grammar : Syntax
  enums : List Enum
  messages : List Message
  services : List Service

-- What the full names of a file's types begin with.
def File.scope (f : File) : String :=
  if f.package.isEmpty then "" else "." ++ f.package

end Protogen.Schema
