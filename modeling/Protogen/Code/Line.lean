import Protogen.Number.Integer
import Protogen.Schema.Basic

set_option autoImplicit false

namespace Protogen.Code

inductive Helper where
  | longFromJson
  | longFromString
  | longFromBigint
  | base64FromBytes
  | bytesFromBase64
  | timestampFromDate
  | timestampFromIso
  | dateFromTimestamp
  | isoFromTimestamp
  | dateToJson
  | timestampToJson
  | timestampFromJson
  | dateFromJson
  | isoFromJson
  deriving DecidableEq

namespace Helper

def all : List Helper := [
  longFromJson, longFromString, longFromBigint, base64FromBytes, bytesFromBase64, timestampFromDate,
  timestampFromIso, dateFromTimestamp, isoFromTimestamp, dateToJson, timestampToJson,
  timestampFromJson, dateFromJson, isoFromJson]

def name : Helper → String
  | longFromJson => "long_from_json"
  | longFromString => "long_from_string"
  | longFromBigint => "long_from_bigint"
  | base64FromBytes => "base64_from_bytes"
  | bytesFromBase64 => "bytes_from_base64"
  | timestampFromDate => "timestamp_from_date"
  | timestampFromIso => "timestamp_from_iso"
  | dateFromTimestamp => "date_from_timestamp"
  | isoFromTimestamp => "iso_from_timestamp"
  | dateToJson => "date_to_json"
  | timestampToJson => "timestamp_to_json"
  | timestampFromJson => "timestamp_from_json"
  | dateFromJson => "date_from_json"
  | isoFromJson => "iso_from_json"

end Helper

/-- A part of a line. -/
inductive Piece where
  | text (s : String)
  -- A text of the schema between quotation marks.
  | literal (s : String)
  | helper (h : Helper)
  -- The tag of a record.
  | tag (t : UInt32)
  /-- The field number that an arm of a reader is for. -/
  | fieldNumber (n : Int32)
  -- The method that reads or writes values of a type.
  | method (name : String)
  /-- The path of a message that is read, or put together to be written. -/
  | message (path : String)
  deriving DecidableEq

def Piece.render : Piece → String
  | text s => s
  | literal s => "\"" ++ s ++ "\""
  | helper h => h.name
  | tag t => String.ofList (Number.natText t.toNat)
  | fieldNumber n => String.ofList (Number.intText n.toInt)
  | method name => name
  | message path => path

structure Line where
  pieces : List Piece
  deriving DecidableEq

namespace Line

instance : Append Line := ⟨fun a b => ⟨a.pieces ++ b.pieces⟩⟩
instance : Coe String Line := ⟨fun s => ⟨[.text s]⟩⟩
instance : Coe Piece Line := ⟨fun p => ⟨[p]⟩⟩

def render (l : Line) : String :=
  String.join (l.pieces.map Piece.render)

def helpers (l : Line) : List Helper :=
  l.pieces.filterMap fun
    | .helper h => some h
    | _ => none

def braced (l : Line) : Line :=
  "\x7b " ++ l ++ " \x7d"

end Line

-- A value at hand, where it is to be encoded: a member of an item, or what a reference is bound to.
inductive Value where
  | place (expression : String)
  | ref (name : String)

namespace Value

-- The value itself, for types whose values are copied.
def copied : Value → String
  | place e => e
  | ref n => "*" ++ n

def borrowed : Value → String
  | place e => "&" ++ e
  | ref n => n

def receiver : Value → String
  | place e => e
  | ref n => n

def cloned (v : Value) (copy : Bool) : String :=
  if copy then v.copied else v.receiver ++ ".clone()"

end Value

end Protogen.Code
