import Protogen.Text.Blank
import Protogen.Text.Casing

set_option autoImplicit false

namespace Protogen.Naming

open Text (upper lower upperChar lowerChar isUpper isLower splitAt stripEnd?)

def capitalize (lowerRest : Bool) : List Char → List Char
  | [] => []
  | c :: cs => upperChar c ++ if lowerRest then lower cs else cs

-- A word in capitals keeps only its first one.
def pascalWord (word : List Char) : List Char :=
  capitalize (word == upper word) word

/-- Words between underscores are capitalized and joined; a name without an underscore is one word. -/
def pascalChars (cs : List Char) : List Char :=
  if cs.contains '_' then ((splitAt '_' cs).filter (!·.isEmpty)).flatMap pascalWord
  else pascalWord cs

-- Whether a word begins at a capital that follows `before`: after a character that is neither a capital nor an
-- underscore, and, within capitals, where a small letter comes next.
private def startsWord (before : Option Char) (rest : List Char) : Bool :=
  match before with
  | none => false
  | some p =>
    (!isUpper p && p != '_') || (isUpper p && (rest.head?.map isLower).getD false)

/-- The part of a name after the character `before`, with an underscore where a word begins and
capitals in lower case. -/
def snakeFrom (before : Option Char) : List Char → List Char
  | [] => []
  | c :: cs =>
    (if isUpper c then (if startsWord before cs then ['_'] else []) ++ lowerChar c else [c]) ++
      snakeFrom (some c) cs

def snakeChars (cs : List Char) : List Char :=
  snakeFrom none cs

-- Drops underscores and puts the characters that follow them in upper case; `raise` says whether one has just been
-- dropped.
def camelFrom (raise : Bool) : List Char → List Char
  | [] => []
  | c :: cs =>
    if c = '_' then camelFrom true cs
    else (if raise then upperChar c else [c]) ++ camelFrom false cs

def pascal (s : String) : String :=
  String.ofList (pascalChars s.toList)

-- Words in lower case, joined by underscores. Capitals in a row are one word.
def snake (s : String) : String :=
  String.ofList (snakeChars s.toList)

def upperSnake (s : String) : String :=
  String.ofList (upper (snakeChars s.toList))

-- The key that a field has in JSON unless the schema names another.
def lowerCamel (s : String) : String :=
  String.ofList (camelFrom false s.toList)

-- A plural without its `s`. One `s`, or a word that ends in two, is no plural.
def singular (s : String) : String :=
  match stripEnd? s.toList ['s'] with
  | some stem => if stem.isEmpty || stem.getLast? == some 's' then s else String.ofList stem
  | none => s

def keywords : List String := [
  "abstract", "as", "async", "await", "become", "box", "break", "const", "continue", "crate", "do",
  "dyn", "else", "enum", "extern", "false", "final", "fn", "for", "if", "impl", "in", "let", "loop",
  "macro", "match", "mod", "move", "mut", "override", "priv", "pub", "ref", "return", "self", "Self",
  "static", "struct", "super", "trait", "true", "try", "type", "typeof", "unsafe", "unsized", "use",
  "virtual", "where", "while", "yield"]

def escapeKeyword (s : String) : String :=
  if keywords.contains s then s ++ "_" else s

def fieldIdent (s : String) : String :=
  escapeKeyword (snake s)

def variant (s : String) : String :=
  escapeKeyword (pascal s)

def stripStart? (s opening : String) : Option String :=
  if opening.toList.isPrefixOf s.toList then some (String.ofList (s.toList.drop opening.length))
  else none

-- The accessor of a single result, for a method whose name begins with a word for many: the name after that word,
-- with `get` in front and without the `s` of a plural. It is the identifier of a name that has its words apart
-- already; a capital that has no small letter begins a word only there, where what is before it is a small letter.
def accessor? (method : String) : Option String := do
  let stem ← (stripStart? method "Batch" <|> stripStart? method "Bulk")
  match stem.toList with
  | c :: _ =>
    if c.isUpper then
      let stem := if (stripStart? stem "Get").isSome then stem else "Get" ++ stem
      let stem := (stripEnd? stem.toList ['s']).getD stem.toList
      some (fieldIdent (snake (String.ofList stem)))
    else none
  | [] => none

end Protogen.Naming
