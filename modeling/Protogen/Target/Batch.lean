import Protogen.Target.OfSchema

set_option autoImplicit false

namespace Protogen.Target

structure BatchMethod where
  method : Schema.Method
  -- The identifier of the method itself.
  bulk : String
  accessor : String
  -- The parameter of the accessor.
  param : String
  requestPath : String
  inputField : String
  keyType : String
  outputField : String
  valueType : String
  -- Results are found by key rather than by position.
  keyed : Bool

namespace BatchMethod

def loaderField (b : BatchMethod) : String :=
  b.accessor ++ "_loader"

/-- A method without streams whose name asks for many results, whose request has one field, repeated
and no map, and whose response has one field, repeated or a map by the type of the request's. -/
def ofMethod? (ctx : Context) (m : Schema.Method) : Except CompileError (Option BatchMethod) := do
  if m.clientStreaming || m.serverStreaming then return none
  let some accessor := Naming.accessor? m.name | return none
  let input ← ctx.index.message m.input m.name
  let output ← ctx.index.message m.output m.name
  let [inputField] := input.fields | return none
  let [outputField] := output.fields | return none
  if !inputField.isRepeated || !outputField.isRepeated then return none
  let keys ← Field.ofSchema ctx m.input inputField
  if keys.container != .repeated then return none
  let results ← Field.ofSchema ctx m.output outputField
  let keyed : Option Bool :=
    match results.container with
    | .repeated => some false
    | .map shape => if shape.key.type = keys.base.type then some true else none
    | _ => none
  let some keyed := keyed | return none
  let single := Naming.singular keys.ident
  return some {
    method := m
    bulk := Naming.fieldIdent m.name
    accessor
    param := if single = keys.ident then "key" else Naming.fieldIdent single
    requestPath := ← ctx.path m.input ""
    inputField := keys.ident
    keyType := keys.base.type
    outputField := results.ident
    valueType := results.base.unboxed.type
    keyed }

/-- The methods of a service that get an accessor. One whose name is taken, by a method or by an
earlier accessor, is left out. -/
def ofService (ctx : Context) (s : Schema.Service) : Except CompileError (List BatchMethod) := do
  let taken := s.methods.map fun m => Naming.fieldIdent m.name
  s.methods.foldlM (fun found m => do
    match ← ofMethod? ctx m with
    | none => return found
    | some b =>
      if taken.contains b.accessor || found.any (·.accessor == b.accessor) then return found
      else return found ++ [b]) []

end BatchMethod

end Protogen.Target
