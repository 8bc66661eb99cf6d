import Protogen.Code.Writer
import Protogen.Compile.Options
import Protogen.Text.Replace

set_option autoImplicit false

namespace Protogen.Code.Helper

def secondsFromDate : LongOption → Line
  | .number => "date.unix_timestamp()"
  | .string => "date.unix_timestamp().to_string()"
  | .bigInt => "::protoweave::num_bigint::BigInt::from(date.unix_timestamp())"

def secondsToWord : LongOption → Line
  | .number => "timestamp.seconds"
  | .string => Piece.helper .longFromString ++ "(&timestamp.seconds)?"
  | .bigInt => Piece.helper .longFromBigint ++ "(&timestamp.seconds)?"

def dateTime : String := "::protoweave::time::OffsetDateTime"

def rfc3339 : String := "&::protoweave::time::format_description::well_known::Rfc3339"

def badTimestamp : String := ".map_err(|e| CodecError::InvalidTimestamp(e.to_string()))"

-- The code of a helper; `timestamp` is the path of the timestamp message.
def code (long : LongOption) (timestamp : String) : Helper → List Block
  | longFromJson => [
    block "fn long_from_json<T: TryFrom<i128>>(value: &JsonValue) -> Result<T, CodecError>" [
      .line "let wide = json::integer(value)?;",
      .line "T::try_from(wide).map_err(|_| CodecError::Overflow(wide.to_string()))"]]
  | longFromString => [
    block "fn long_from_string<T: ::std::str::FromStr>(value: &str) -> Result<T, CodecError>" [
      .line "value",
      .line "    .trim()",
      .line "    .parse()",
      .line "    .map_err(|_| CodecError::InvalidLong(value.to_string()))"]]
  | longFromBigint => [
    .line "fn long_from_bigint<T>(value: &::protoweave::num_bigint::BigInt) -> Result<T, CodecError>",
    .line "where",
    .line "    for<'b> T: TryFrom<&'b ::protoweave::num_bigint::BigInt>,",
    .hang "\x7b" [
      .line "T::try_from(value).map_err(|_| CodecError::Overflow(value.to_string()))"] "\x7d"]
  | base64FromBytes => [
    block "fn base64_from_bytes(bytes: &[u8]) -> String" [
      .line "use ::protoweave::base64::Engine as _;",
      .line "::protoweave::base64::engine::general_purpose::STANDARD.encode(bytes)"]]
  | bytesFromBase64 => [
    block "fn bytes_from_base64(text: &str) -> Result<Vec<u8>, CodecError>" [
      .line ("use ::protoweave::base64::engine::general_purpose::" ++
        "\x7bSTANDARD_NO_PAD, URL_SAFE_NO_PAD\x7d;"),
      .line "use ::protoweave::base64::Engine as _;",
      .line "let trimmed = text.trim_end_matches('=');",
      .line "STANDARD_NO_PAD",
      .line "    .decode(trimmed)",
      .line "    .or_else(|_| URL_SAFE_NO_PAD.decode(trimmed))",
      .line "    .map_err(|e| CodecError::InvalidBase64(e.to_string()))"]]
  | timestampFromDate => [
    block ("fn timestamp_from_date(date: &" ++ dateTime ++ ") -> " ++ timestamp) [
      block timestamp [
        .line ("seconds: " ++ secondsFromDate long ++ ","),
        .line "nanos: date.nanosecond() as i32,"]]]
  | timestampFromIso => [
    block ("fn timestamp_from_iso(text: &str) -> Result<" ++ timestamp ++ ", CodecError>") [
      .hang ("let date = " ++ dateTime ++ "::parse(") [
        .line "text,",
        .line (rfc3339 ++ ",")] ")",
      .line (badTimestamp ++ "?;"),
      .line ("Ok(" ++ Piece.helper timestampFromDate ++ "(&date))")]]
  | dateFromTimestamp => [
    .line "fn date_from_timestamp(",
    .line ("    timestamp: &" ++ timestamp ++ ","),
    block (") -> Result<" ++ dateTime ++ ", CodecError>") [
      .line ("let seconds: i64 = " ++ secondsToWord long ++ ";"),
      .line "let nanos = i128::from(seconds) * 1_000_000_000 + i128::from(timestamp.nanos);",
      .line (dateTime ++ "::from_unix_timestamp_nanos(nanos)"),
      .line ("    " ++ badTimestamp)]]
  | isoFromTimestamp => [
    block ("fn iso_from_timestamp(timestamp: &" ++ timestamp ++ ") -> Result<String, CodecError>") [
      .line (Piece.helper dateFromTimestamp ++ "(timestamp)?"),
      .line ("    .format(" ++ rfc3339 ++ ")"),
      .line ("    " ++ badTimestamp)]]
  | dateToJson => [
    block ("fn date_to_json(date: &" ++ dateTime ++ ") -> JsonValue") [
      block ("match date.format(" ++ rfc3339 ++ ")") [
        .line "Ok(text) => JsonValue::from(text),",
        .line ("Err(_) => " ++ Piece.helper timestampFromDate ++ "(date).to_json(),")]]]
  | timestampToJson => [
    block ("fn timestamp_to_json(timestamp: &" ++ timestamp ++ ") -> JsonValue") [
      block ("match " ++ Piece.helper isoFromTimestamp ++ "(timestamp)") [
        .line "Ok(text) => JsonValue::from(text),",
        .line "Err(_) => timestamp.to_json(),"]]]
  | timestampFromJson => [
    block ("fn timestamp_from_json(value: &JsonValue) -> Result<" ++ timestamp ++ ", CodecError>") [
      block "match value" [
        .line ("JsonValue::String(text) => " ++ Piece.helper timestampFromIso ++ "(text),"),
        .line ("other => " ++ timestamp ++ "::from_json(other),")]]]
  | dateFromJson => [
    block ("fn date_from_json(value: &JsonValue) -> Result<" ++ dateTime ++ ", CodecError>") [
      block "match value" [
        .hang ("JsonValue::String(text) => " ++ dateTime ++ "::parse(") [
          .line "text,",
          .line (rfc3339 ++ ",")] ")",
        .line (badTimestamp ++ ","),
        .line ("other => " ++ Piece.helper dateFromTimestamp ++ "(&" ++ timestamp ++
          "::from_json(other)?),")]]]
  | isoFromJson => [
    block "fn iso_from_json(value: &JsonValue) -> Result<String, CodecError>" [
      block "match value" [
        .line "JsonValue::String(text) => Ok(text.clone()),",
        .line ("other => " ++ Piece.helper isoFromTimestamp ++ "(&" ++ timestamp ++
          "::from_json(other)?),")]]]

-- Puts the conversions of seconds in place of their marks in the path of the timestamp message.
def fillMarks (long : LongOption) (path : String) : String :=
  let path := Text.replaceAll path.toList "__seconds_from_date__".toList
    (secondsFromDate long).render.toList
  let path := Text.replaceAll path "__seconds_to_i64__".toList (secondsToWord long).render.toList
  String.ofList path

def text (long : LongOption) (timestamp : String) (h : Helper) : String :=
  (Writer.empty.run (stepsOf (h.code long (fillMarks long timestamp)))).joined

def requires (long : LongOption) : Helper → List Helper
  | dateFromTimestamp =>
    match long with
    | .number => []
    | .string => [longFromString]
    | .bigInt => [longFromBigint]
  | timestampFromIso | dateToJson => [timestampFromDate]
  | isoFromTimestamp => [dateFromTimestamp]
  | timestampToJson => [isoFromTimestamp]
  | timestampFromJson => [timestampFromIso]
  | dateFromJson => [dateFromTimestamp]
  | isoFromJson => [isoFromTimestamp]
  | _ => []

def needsTimestamp : Helper → Bool
  | timestampFromDate | timestampFromIso | dateFromTimestamp | isoFromTimestamp | dateToJson
  | timestampToJson | timestampFromJson | dateFromJson | isoFromJson => true
  | _ => false

def callees (long : LongOption) : Nat → Helper → List Helper
  | 0, h => [h]
  | depth + 1, h => h :: (h.requires long).flatMap (callees long depth)

-- A helper and all that it calls, directly or through others; there are two of those at most.
def closure (long : LongOption) (h : Helper) : List Helper :=
  callees long 3 h

-- How many helpers are called one through the other at most, where a helper is.
def rank : Helper → Nat
  | dateFromTimestamp | timestampFromIso | dateToJson => 1
  | isoFromTimestamp | timestampFromJson | dateFromJson => 2
  | timestampToJson | isoFromJson => 3
  | _ => 0

theorem rank_lt {long : LongOption} {h r : Helper} (required : r ∈ h.requires long) : r.rank < h.rank := by
  revert r
  cases long <;> cases h <;> decide

/-- Marks a helper as used and, if it has not been, what it calls. -/
def mark (long : LongOption) (used : List Helper) (h : Helper) : List Helper :=
  if used.contains h then used
  else (h.requires long).attach.foldl (fun used r => mark long used r.1) (used ++ [h])
termination_by h.rank
decreasing_by exact rank_lt r.2

def needed (long : LongOption) (called : List Helper) : List Helper :=
  let used := called.foldl (mark long) []
  all.filter used.contains

end Protogen.Code.Helper
