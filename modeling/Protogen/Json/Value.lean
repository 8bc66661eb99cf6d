import Protogen.Dict
import Protogen.Number.Float

set_option autoImplicit false

namespace Protogen

inductive Json where
  | null
  | bool (b : Bool)
  | int (i : Int)
  | double (x : Number.Double)
  | string (s : String)
  | array (items : List Json)
  | object (members : List (String × Json))
  deriving Inhabited

namespace Json

-- An object from members in any order. The last of several values of a key holds.
def ofMembers (ms : List (String × Json)) : Json :=
  .object (ms.foldl (fun acc m => insertKey m.1 m.2 acc) [])

inductive Keyed : Json → Prop
  | null : Keyed .null
  | bool (b : Bool) : Keyed (.bool b)
  | int (i : Int) : Keyed (.int i)
  | double (x : Number.Double) : Keyed (.double x)
  | string (s : String) : Keyed (.string s)
  | array {items : List Json} : (∀ v ∈ items, Keyed v) → Keyed (.array items)
  | object {members : List (String × Json)} :
    (members.map (·.1)).Nodup → (∀ m ∈ members, Keyed m.2) → Keyed (.object members)

theorem keyed_ofMembers {members : List (String × Json)} (each : ∀ m ∈ members, m.2.Keyed) :
    (ofMembers members).Keyed := by
  have both (acc : List (String × Json)) (keyed : KeysSorted acc ∧ ∀ e ∈ acc, e.2.Keyed) (m : String × Json)
      (member : m ∈ members) : KeysSorted (insertKey m.1 m.2 acc) ∧ ∀ e ∈ insertKey m.1 m.2 acc, e.2.Keyed := by
    refine ⟨keysSorted_insertKey m.1 m.2 keyed.1, fun e entry => ?_⟩
    rcases mem_insertKey entry with rfl | entry
    · exact each m member
    · exact keyed.2 e entry
  obtain ⟨sorted, keyed⟩ := List.foldlRecOn members _ ⟨List.Pairwise.nil, List.forall_mem_nil _⟩ both
  exact .object sorted.nodup keyed

def isNull : Json → Bool
  | .null => true
  | _ => false

def kind : Json → String
  | .null => "null"
  | .bool _ => "boolean"
  | .int _ | .double _ => "number"
  | .string _ => "string"
  | .array _ => "array"
  | .object _ => "object"

end Json

end Protogen
