import Protogen.Target.Type

set_option autoImplicit false

namespace Protogen.Target

structure Field where
  schema : Schema.Field
  ident : String
  jsonKey : String
  base : Base
  container : Container

namespace Field

def type (f : Field) : String :=
  f.container.type f.base.type

def partialType (f : Field) : String :=
  f.container.partialType f.base.partialType

end Field

-- A choice that is one member, with a type of its own that has a variant for each field.
structure Union where
  choice : Nat
  ident : String
  symbol : String
  -- The positions of the fields.
  members : List Nat

def Union.partialSymbol (u : Union) : String :=
  u.symbol ++ "Partial"

structure Struct where
  fullName : String
  symbol : String
  fields : List Field
  unions : List Union

inductive Member where
  | field (f : Field)
  | union (u : Union)

namespace Struct

def partialSymbol (s : Struct) : String :=
  s.symbol ++ "Partial"

def union? (s : Struct) (choice : Nat) : Option Union :=
  s.unions.find? (·.choice == choice)

/-- The member that a field brings with it: itself, or, for the first field of a choice that is one
member, that member. -/
def memberAt (s : Struct) (position : Nat) (f : Field) : Option Member :=
  match f.container with
  | .union choice _ =>
    match s.union? choice with
    | some u => if u.members.head? = some position then some (.union u) else none
    | none => none
  | _ => some (.field f)

-- The members of the item, in the order of the fields.
def members (s : Struct) : List Member :=
  s.fields.zipIdx.filterMap fun (f, i) => s.memberAt i f

def variants (s : Struct) (u : Union) : List (String × Field) :=
  u.members.filterMap fun i =>
    match s.fields[i]? with
    | some f =>
      match f.container with
      | .union _ variant => some (variant, f)
      | _ => none
    | none => none

/-- The other fields of the choice that a singular field belongs to. Explicit presence makes no
choice. -/
def siblings (s : Struct) (f : Field) : List Field :=
  match f.schema.choice, f.container with
  | some _, .required | some _, .optional =>
    if f.schema.explicitPresence then []
    else
      s.fields.filter fun g =>
        g.schema.choice == f.schema.choice && g.schema.number != f.schema.number &&
          !g.schema.explicitPresence
  | _, _ => []

end Struct

end Protogen.Target
