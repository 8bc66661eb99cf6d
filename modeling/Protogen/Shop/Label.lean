set_option autoImplicit false

namespace Protogen.Shop

structure LabelFields where
  name : Option String
  count : Option Int32
  deriving DecidableEq

inductive LabelChoice where
  | name (s : String)
  | count (n : Int32)
  deriving DecidableEq

inductive PartialLabel where
  | name (s : Option String)
  | count (n : Option Int32)

/-- A form that labels are held in. Setting a member puts it in the place of the other. -/
structure LabelForm where
  Carrier : Type
  none : Carrier
  name? : Carrier → Option String
  count? : Carrier → Option Int32
  setName : String → Carrier → Carrier
  setCount : Int32 → Carrier → Carrier
  Partial : Type
  ofPartial : Partial → Carrier

namespace LabelForm

@[reducible] def fields : LabelForm where
  Carrier := LabelFields
  none := ⟨.none, .none⟩
  name? := LabelFields.name
  count? := LabelFields.count
  setName s _ := ⟨some s, .none⟩
  setCount n _ := ⟨.none, some n⟩
  -- The two fields of a partial label are taken over one by one.
  Partial := LabelFields
  ofPartial p := p

@[reducible] def choice : LabelForm where
  Carrier := Option LabelChoice
  none := .none
  name? := fun
    | some (.name s) => some s
    | _ => .none
  count? := fun
    | some (.count n) => some n
    | _ => .none
  setName s _ := some (.name s)
  setCount n _ := some (.count n)
  Partial := Option PartialLabel
  ofPartial := fun
    | some (.name (some s)) => some (.name s)
    | some (.count (some n)) => some (.count n)
    | _ => .none

end LabelForm

end Protogen.Shop
