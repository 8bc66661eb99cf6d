import Protogen.Json.Value
import Protogen.Number.Decimal

set_option autoImplicit false

namespace Protogen.Json

private def hexPair (n : Nat) : List Char :=
  [Nat.digitChar (n / 16), Nat.digitChar (n % 16)]

def escapeChar (c : Char) : List Char :=
  if c = '"' then ['\\', '"']
  else if c = '\\' then ['\\', '\\']
  else if c = '\n' then ['\\', 'n']
  else if c = '\r' then ['\\', 'r']
  else if c = '\t' then ['\\', 't']
  else if c = '\x08' then ['\\', 'b']
  else if c = '\x0c' then ['\\', 'f']
  else if c.toNat < 32 then ['\\', 'u', '0', '0'] ++ hexPair c.toNat
  else [c]

def escape (s : String) : List Char :=
  '"' :: s.toList.flatMap escapeChar ++ ['"']

-- A number, finite or not: JSON has no text for the others but `null`.
private def doubleText (x : Number.Double) : List Char :=
  if x.isFinite then x.text .json else "null".toList

mutual

def chars : Json → List Char
  | .null => "null".toList
  | .bool b => (if b then "true" else "false").toList
  | .int i => Number.intText i
  | .double x => doubleText x
  | .string s => escape s
  | .array items => '[' :: charsItems items ++ [']']
  | .object members => '\x7b' :: charsMembers members ++ ['\x7d']

def charsItems : List Json → List Char
  | [] => []
  | [v] => chars v
  | v :: vs => chars v ++ ',' :: charsItems vs

def charsMembers : List (String × Json) → List Char
  | [] => []
  | [(k, v)] => escape k ++ ':' :: chars v
  | (k, v) :: ms => escape k ++ ':' :: chars v ++ ',' :: charsMembers ms

end

def compact (v : Json) : String :=
  String.ofList v.chars

private def newline (depth : Nat) : List Char :=
  '\n' :: List.replicate (2 * depth) ' '

mutual

/-- The indented text at a depth, with two spaces for each level. Members keep their order, and an
empty list or object takes no line of its own. -/
def indented (depth : Nat) : Json → List Char
  | .array [] => ['[', ']']
  | .array items => '[' :: indentedItems (depth + 1) items ++ newline depth ++ [']']
  | .object [] => ['\x7b', '\x7d']
  | .object members => '\x7b' :: indentedMembers (depth + 1) members ++ newline depth ++ ['\x7d']
  | v => chars v

def indentedItems (depth : Nat) : List Json → List Char
  | [] => []
  | [v] => newline depth ++ indented depth v
  | v :: vs => newline depth ++ indented depth v ++ ',' :: indentedItems depth vs

def indentedMembers (depth : Nat) : List (String × Json) → List Char
  | [] => []
  | [(k, v)] => newline depth ++ escape k ++ ':' :: ' ' :: indented depth v
  | (k, v) :: ms =>
    newline depth ++ escape k ++ ':' :: ' ' :: indented depth v ++ ',' :: indentedMembers depth ms

end

def pretty (v : Json) : String :=
  String.ofList (v.indented 0)

end Protogen.Json
