import Protogen.Number.Integer

set_option autoImplicit false

namespace Protogen

inductive OptionFault where
  /-- It is not a key and a value. -/
  | malformed
  | unknown
  | unsupported (value : String)
  | notBool (value : String)
  | notPath (value : String)
  deriving DecidableEq

inductive EntryFault where
  | fieldCount
  | numbers
  | keyKind
  | repeatedField
  deriving DecidableEq

-- What is wrong with a schema. Fields are given with their message in front.
inductive SchemaFault where
  | fieldNameTwice (field message : String)
  | fieldNumberTwice (field : String)
  | numberOutOfRange (number : Int) (field : String)
  | numberReserved (number : Int) (field : String)
  | missingChoice (field : String) (index : Nat)
  | noTypeName (field : String)
  | mapEntry (message : String) (fault : EntryFault)
  -- An enumeration where a message is expected.
  | notMessage (context name : String)
  /-- A message where an enumeration is expected. -/
  | notEnum (context name : String)
  -- A map entry, met before it was checked, without just a key and a value.
  | entryFields (message : String)
  /-- A variant whose choice the item of its message does not have. -/
  | noChoice (message : String) (index : Nat)
  deriving DecidableEq

inductive CompileError where
  | io
  | decode
  | json
  | invalidOption (key : String) (fault : OptionFault)
  | optionTwice (key : String)
  -- A client is to be written, but no encoding for it to use.
  | clientWithoutEncoding
  | duplicateType (name : String)
  | unresolvedType (name context : String)
  | unsupportedFieldType (field kind : String)
  | emptyEnum (name : String)
  | schema (fault : SchemaFault)
  deriving DecidableEq

private def inQuotes (s : String) : String :=
  "\"" ++ s ++ "\""

def OptionFault.message : OptionFault → String
  | malformed => "expected key=value"
  | unknown => "unknown option"
  | unsupported v => "unsupported value " ++ inQuotes v
  | notBool v => "expected true or false, found " ++ inQuotes v
  | notPath v => inQuotes v ++ " is not a Rust path"

def EntryFault.message : EntryFault → String
  | fieldCount => "expected exactly two fields"
  | numbers => "key and value must be fields 1 and 2"
  | keyKind => "key must be an integral, bool or string type"
  | repeatedField => "key and value cannot be repeated"

def SchemaFault.message : SchemaFault → String
  | fieldNameTwice f m => "The field name " ++ inQuotes f ++ " is used twice in " ++ m
  | fieldNumberTwice f => "The number for field " ++ inQuotes f ++ " is used twice"
  | numberOutOfRange n f =>
    "The number " ++ String.ofList (Number.intText n) ++ " for field " ++ inQuotes f ++
      " is out of range"
  | numberReserved n f =>
    "The number " ++ String.ofList (Number.intText n) ++ " for field " ++ inQuotes f ++ " is reserved"
  | missingChoice f i => "Field " ++ inQuotes f ++ " points at missing oneof #" ++ toString i
  | noTypeName f => "Field " ++ inQuotes f ++ " has no type name"
  | mapEntry m fault => "Map entry " ++ inQuotes m ++ " is malformed: " ++ fault.message
  | notMessage c n => c ++ " refers to enum " ++ n ++ " where a message is expected"
  | notEnum c n => c ++ " refers to message " ++ n ++ " where an enum is expected"
  | entryFields m => "map entry " ++ m ++ " must have exactly two fields"
  | noChoice m i => m ++ " has no oneof #" ++ toString i

def CompileError.message : CompileError → String
  | io => "I/O error"
  | decode => "Descriptor decode error"
  | json => "JSON error"
  | invalidOption k fault => "Invalid option " ++ inQuotes k ++ ": " ++ fault.message
  | optionTwice k => "Conflicting options: " ++ inQuotes k ++ " is given more than once"
  | clientWithoutEncoding =>
    "Conflicting options: outputClientImpl requires outputEncodeMethods=true"
  | duplicateType n => "The type " ++ inQuotes n ++ " is defined twice"
  | unresolvedType n c => "Unresolved type " ++ inQuotes n ++ " referenced from " ++ c
  | unsupportedFieldType f k => "Unsupported type " ++ k ++ " for field " ++ inQuotes f
  | emptyEnum n => "The enum " ++ inQuotes n ++ " declares no values"
  | schema fault => "Verifier error: " ++ fault.message

end Protogen
