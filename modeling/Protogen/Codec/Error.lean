import Protogen.Number.Integer
import Protogen.Text.Quoted

set_option autoImplicit false

namespace Protogen

inductive CodecError where
  -- The buffer ends inside a value.
  | truncated
  /-- A varint has more bits than 64. -/
  | invalidVarint
  | invalidWireType (wireType : Nat)
  | groupMismatch (expected found : Nat)
  -- Messages and groups nest deeper than the limit.
  | recursionLimit (limit : Nat)
  | invalidUtf8
  -- A length prefix announces more bytes than the buffer holds.
  | lengthOverflow (length : Nat)
  | unexpectedJson (expected found : String)
  | invalidEnumValue (enumName value : String)
  -- An integer outside the type that it is to be stored in.
  | overflow (value : Int)
  /-- A text that is not an integer of the type. -/
  | invalidLong (text : String)
  | invalidBase64
  | invalidTimestamp
  | invalidJson
  deriving DecidableEq, Inhabited

namespace CodecError

def message : CodecError → String
  | truncated => "unexpected end of buffer"
  | invalidVarint => "malformed varint"
  | invalidWireType n => "invalid wire type " ++ toString n
  | groupMismatch e f =>
    "group for field " ++ toString e ++ " closed by an end tag for field " ++ toString f
  | recursionLimit n => "nesting exceeds the recursion limit of " ++ toString n
  | invalidUtf8 => "string field is not valid UTF-8"
  | lengthOverflow n => "length prefix " ++ toString n ++ " overflows the buffer"
  | unexpectedJson e f => "expected " ++ e ++ ", found " ++ f
  | invalidEnumValue n v => "invalid value " ++ Text.quoted v ++ " for enum " ++ n
  | overflow i =>
    "value " ++ String.ofList (Number.intText i) ++ " does not fit in the target integer type"
  | invalidLong t => "invalid 64-bit integer " ++ Text.quoted t
  | invalidBase64 => "invalid base64"
  | invalidTimestamp => "invalid timestamp"
  | invalidJson => "invalid JSON"

end CodecError

end Protogen
