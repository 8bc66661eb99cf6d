import Protogen.Compile.Error
import Protogen.Text.Blank

set_option autoImplicit false

namespace Protogen

open Text (splitAt trim isBlank)

inductive LongOption where
  | number
  | string
  | bigInt
  deriving DecidableEq

inductive DateOption where
  | timestamp
  | date
  | string
  deriving DecidableEq

inductive EnumJson where
  | name
  | number
  deriving DecidableEq

inductive ChoiceOption where
  | properties
  | unions
  deriving DecidableEq

inductive ClientOption where
  | none
  | rpc
  | grpc
  deriving DecidableEq

structure Options where
  long : LongOption := .number
  date : DateOption := .timestamp
  stringEnums : Bool := false
  jsonEnums : EnumJson := .name
  choice : ChoiceOption := .properties
  snakeToCamel : Bool := true
  outputEncode : Bool := true
  outputJson : Bool := true
  outputPartial : Bool := true
  client : ClientOption := .rpc
  moduleRoot : String := "crate"
  deriving DecidableEq

namespace Options

def isIdentStart (c : Char) : Bool :=
  c.isAlpha || c = '_'

def isIdentRest (c : Char) : Bool :=
  c.isAlphanum || c = '_'

-- One or more identifiers, with a double colon between them; `fuel` exceeds the number of them.
def isPathFrom : Nat → List Char → Bool
  | 0, _ => false
  | _ + 1, [] => false
  | fuel + 1, c :: cs =>
    isIdentStart c &&
      match cs.dropWhile isIdentRest with
      | [] => true
      | ':' :: ':' :: rest => isPathFrom fuel rest
      | _ => false

def isModulePath (value : String) : Bool :=
  match value.toList with
  | ':' :: ':' :: cs => isPathFrom (cs.length + 1) cs
  | cs => isPathFrom (cs.length + 1) cs

def readPair? (piece : List Char) : Option (String × String) :=
  let cs := trim piece
  let key := cs.takeWhile isIdentRest
  match key, (cs.dropWhile isIdentRest).dropWhile isBlank with
  | k :: _, '=' :: rest =>
    let value := rest.dropWhile isBlank
    if k.isAlpha && !value.isEmpty && !value.any isBlank then
      some (String.ofList key, String.ofList value)
    else none
  | _, _ => none

def readBool (key value : String) : Except CompileError Bool :=
  match value with
  | "true" => .ok true
  | "false" => .ok false
  | _ => .error (.invalidOption key (.notBool value))

def readLong? : String → Option LongOption
  | "number" | "long" => some .number
  | "string" => some .string
  | "bigint" => some .bigInt
  | _ => none

def readDate? : String → Option DateOption
  | "timestamp" | "false" => some .timestamp
  | "date" | "true" => some .date
  | "string" => some .string
  | _ => none

def readEnumJson? : String → Option EnumJson
  | "name" => some .name
  | "number" => some .number
  | _ => none

def readChoice? : String → Option ChoiceOption
  | "properties" => some .properties
  | "unions" => some .unions
  | _ => none

def readClient? : String → Option ClientOption
  | "true" => some .rpc
  | "false" => some .none
  | "grpc" => some .grpc
  | _ => none

def supported {α : Type} (key value : String) : Option α → Except CompileError α
  | some a => .ok a
  | none => .error (.invalidOption key (.unsupported value))

-- Gives the option of a key its value.
def set (o : Options) (key value : String) : Except CompileError Options :=
  match key with
  | "forceLong" => do return { o with long := ← supported key value (readLong? value) }
  | "useDate" => do return { o with date := ← supported key value (readDate? value) }
  | "jsonEnums" => do return { o with jsonEnums := ← supported key value (readEnumJson? value) }
  | "oneof" => do return { o with choice := ← supported key value (readChoice? value) }
  | "outputClientImpl" => do return { o with client := ← supported key value (readClient? value) }
  | "moduleRoot" =>
    if isModulePath value then .ok { o with moduleRoot := value }
    else .error (.invalidOption key (.notPath value))
  | "stringEnums" => do return { o with stringEnums := ← readBool key value }
  | "snakeToCamel" => do return { o with snakeToCamel := ← readBool key value }
  | "outputEncodeMethods" => do return { o with outputEncode := ← readBool key value }
  | "outputJsonMethods" => do return { o with outputJson := ← readBool key value }
  | "outputPartialMethods" => do return { o with outputPartial := ← readBool key value }
  | _ => .error (.invalidOption key .unknown)

def readPiece (state : List String × Options) (piece : List Char) :
    Except CompileError (List String × Options) :=
  match readPair? piece with
  | none => .error (.invalidOption (String.ofList (trim piece)) .malformed)
  | some (key, value) =>
    if state.1.contains key then .error (.optionTwice key)
    else do return (key :: state.1, ← state.2.set key value)

/-- Reads options from left to right; blank pieces are ignored. A client needs the encoding. -/
def parse (text : String) : Except CompileError Options := do
  let pieces := (splitAt ',' text.toList).filter fun piece => !(trim piece).isEmpty
  let (_, o) ← pieces.foldlM readPiece ([], {})
  if o.client ≠ .none ∧ !o.outputEncode then throw .clientWithoutEncoding
  return o

end Options

end Protogen
