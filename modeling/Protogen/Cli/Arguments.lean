set_option autoImplicit false

namespace Protogen.Cli

inductive Command where
  | plugin
  -- Generates code from a descriptor set: for the files named, or else for all.
  | generate (set out : String) (files : List String) (options : List String)
  | inspect (set : String)
  deriving DecidableEq

inductive Stop where
  | help (text : String)
  | usage
  deriving DecidableEq

inductive Flag where
  | set
  | out
  | file
  | param
  | opt
  deriving DecidableEq

namespace Flag

def short? : Flag → Option Char
  | set => some 'd'
  | out => some 'o'
  | file => some 'f'
  | param => some 'p'
  | opt => none

def long : Flag → String
  | set => "descriptor-set"
  | out => "out"
  | file => "file"
  | param => "param"
  | opt => "opt"

def isRepeated : Flag → Bool
  | file | opt => true
  | _ => false

-- Whether the value is a path, which cannot be empty.
def isPath : Flag → Bool
  | set | out => true
  | _ => false

end Flag

abbrev Given := List (Flag × String)

private def give (given : Given) (flag : Flag) (value : String) : Except Stop Given :=
  if !flag.isRepeated && given.any (·.1 == flag) then .error .usage
  else if flag.isPath && value.isEmpty then .error .usage
  else .ok (given ++ [(flag, value)])

inductive Token where
  | endOfOptions
  -- The name of an option, and its value if that is part of the argument.
  | long (name : String) (value : Option String)
  | short (letter : Char) (value : Option String)
  | plain
  deriving DecidableEq

-- Letters after the first one of a short option are its value. An equals sign may come between.
def Token.of (arg : String) : Token :=
  match arg.toList with
  | ['-', '-'] => endOfOptions
  | '-' :: '-' :: cs =>
    let name := String.ofList (cs.takeWhile (· != '='))
    match cs.dropWhile (· != '=') with
    | _ :: value => long name (some (String.ofList value))
    | [] => long name none
  | '-' :: c :: cs =>
    match cs with
    | [] => short c none
    | '=' :: value => short c (some (String.ofList value))
    | value => short c (some (String.ofList value))
  | _ => plain

private def takeOption (given : Given) (flag? : Option Flag) (value : Option String)
    (rest : List String) : Except Stop (Given × Nat) :=
  match flag?, value, rest with
  | none, _, _ => .error .usage
  | some flag, some value, _ => do return (← give given flag value, 0)
  | some flag, none, next :: _ =>
    if Token.of next = .plain then do return (← give given flag next, 1) else .error .usage
  | some _, none, [] => .error .usage

private def readFlags (flags : List Flag) (help : Bool → String) (given : Given) (skip : Nat) :
    List String → Except Stop Given
  | [] => .ok given
  | arg :: rest =>
    match skip with
    | n + 1 => readFlags flags help given n rest
    | 0 =>
      match Token.of arg with
      | .endOfOptions => if rest.isEmpty then .ok given else .error .usage
      | .plain => .error .usage
      | .short 'h' _ => .error (.help (help false))
      | .long "help" value => .error (if value.isSome then .usage else .help (help true))
      | .short c value => do
        let (given, n) ← takeOption given (flags.find? (·.short? == some c)) value rest
        readFlags flags help given n rest
      | .long name value => do
        let (given, n) ← takeOption given (flags.find? (·.long == name)) value rest
        readFlags flags help given n rest

private def valuesOf (given : Given) (flag : Flag) : List String :=
  given.filterMap fun g => if g.1 = flag then some g.2 else none

private def usageOf (arguments : String) : String :=
  "Usage: protoc-gen-protoweave " ++ arguments ++ "\n\n"

private def mainHelp (long : Bool) : String :=
  (if long then
    "Run without a subcommand to act as a protoc plugin: a CodeGeneratorRequest is read from stdin " ++
      "and a CodeGeneratorResponse is written to stdout.\n\n"
  else "Generate Rust messages and service clients from protobuf descriptors\n\n") ++
  usageOf "[COMMAND]" ++
  "Commands:\n" ++
  "  generate  Generate Rust code from a serialized `FileDescriptorSet`\n" ++
  "  inspect   Print the type index of a descriptor set as JSON\n" ++
  "  help      Print this message or the help of the given subcommand(s)\n\n" ++
  "Options:\n" ++
  if long then "  -h, --help\n          Print help (see a summary with '-h')\n"
  else "  -h, --help  Print help (see more with '--help')\n"

private def generateHelp : String :=
  "Generate Rust code from a serialized `FileDescriptorSet`\n\n" ++
  usageOf "generate [OPTIONS] --descriptor-set <DESCRIPTOR_SET>" ++
  "Options:\n" ++
  "  -d, --descriptor-set <DESCRIPTOR_SET>\n" ++
  "          Descriptor set, e.g. from `protoc --include_imports --descriptor_set_out`\n" ++
  "  -o, --out <OUT>\n          Output directory [default: .]\n" ++
  "  -f, --file <FILE>\n" ++
  "          Files to generate (defaults to every non-well-known file in the set)\n" ++
  "  -p, --param <PARAM>\n" ++
  "          Parameter string, as protoc would pass it (`forceLong=string,oneof=unions`)\n" ++
  "      --opt <OPT>\n" ++
  "          Additional options, repeatable (`--opt forceLong=string`)\n" ++
  "  -h, --help\n          Print help\n"

private def inspectHelp : String :=
  "Print the type index of a descriptor set as JSON\n\n" ++
  usageOf "inspect --descriptor-set <DESCRIPTOR_SET>" ++
  "Options:\n" ++
  "  -d, --descriptor-set <DESCRIPTOR_SET>  \n" ++
  "  -h, --help                             Print help\n"

private def helpOn : List String → Except Stop Command
  | [] => .error (.help (mainHelp true))
  | ["generate"] => .error (.help generateHelp)
  | ["inspect"] => .error (.help inspectHelp)
  | ["help"] =>
    .error (.help ("Print this message or the help of the given subcommand(s)\n\n" ++
      "Usage: protoc-gen-protoweave help [COMMAND]...\n\n" ++
      "Arguments:\n  [COMMAND]...  Print help for the subcommand(s)\n"))
  | _ => .error .usage

-- The parameters and options of `generate`: one parameter text at most goes first.
private def generateOf (given : Given) : Except Stop Command :=
  match valuesOf given .set with
  | set :: _ =>
    .ok (.generate set ((valuesOf given .out).headD ".") (valuesOf given .file)
      (valuesOf given .param ++ valuesOf given .opt))
  | [] => .error .usage

private def inspectOf (given : Given) : Except Stop Command :=
  match valuesOf given .set with
  | set :: _ => .ok (.inspect set)
  | [] => .error .usage

def Command.parse : List String → Except Stop Command
  | [] => .ok .plugin
  | "generate" :: args => do
    generateOf (← readFlags [.set, .out, .file, .param, .opt] (fun _ => generateHelp) [] 0 args)
  | "inspect" :: args => do
    inspectOf (← readFlags [.set] (fun _ => inspectHelp) [] 0 args)
  | "help" :: args => helpOn args
  | args => do
    let _ ← readFlags [] mainHelp [] 0 args
    return .plugin

end Protogen.Cli
