import Protogen.Codec.JsonMessage
import Protogen.Proofs.Except
import Protogen.Proofs.Json.Member

set_option autoImplicit false

namespace Protogen

namespace Json

def strip (keys : List String) (inner : String → Json → Json) : Json → Json
  | .object members =>
    .object ((members.filter fun m => keys.contains m.1 && !m.2.isNull).map fun m => (m.1, inner m.1 m.2))
  | v => v

def mapItems (f : Json → Json) : Json → Json
  | .array items => .array (items.map f)
  | v => v

variable {keys : List String} {inner : String → Json → Json} {members : List (String × Json)} {key : String}

theorem isNull_strip (v : Json) : (strip keys inner v).isNull = v.isNull := by
  cases v <;> rfl

theorem isNull_mapItems (f : Json → Json) (v : Json) : (mapItems f v).isNull = v.isNull := by
  cases v <;> rfl

theorem member?_strip (declared : key ∈ keys) (stays : ∀ v, (inner key v).isNull = v.isNull)
    (distinct : (members.map (·.1)).Nodup) :
    member? ((members.filter fun m => keys.contains m.1 && !m.2.isNull).map fun m => (m.1, inner m.1 m.2)) key =
      (member? members key).map (inner key) := by
  have left : (((members.filter fun m => keys.contains m.1 && !m.2.isNull).map
      fun m => (m.1, inner m.1 m.2)).map (·.1)).Nodup := by
    rw [List.map_map]
    exact distinct.sublist (List.filter_sublist.map _)
  ext w
  simp only [member?_eq_some_iff left, Option.map_eq_some_iff, member?_eq_some_iff distinct, List.mem_map,
    List.mem_filter, Prod.mk.injEq, Bool.and_eq_true, Bool.not_eq_true', List.contains_iff_mem]
  constructor
  · rintro ⟨⟨⟨_, v⟩, ⟨member, -, present⟩, rfl, rfl⟩, -⟩
    exact ⟨v, ⟨member, present⟩, rfl⟩
  · rintro ⟨v, ⟨member, present⟩, rfl⟩
    exact ⟨⟨(key, v), ⟨member, declared, present⟩, rfl, rfl⟩, (stays v).trans present⟩

end Json

variable {α μ : Type} {s : Json → Json}

namespace JsonCodec

variable {c : JsonCodec α}

/-- What `s` does to a value is not seen: the same comes of reading it, a value or a failure. -/
def Overlooks (c : JsonCodec α) (s : Json → Json) : Prop :=
  ∀ v : Json, v.Keyed → c.read (s v) = c.read v

theorem overlooks_list (item : c.Overlooks s) : (list c).Overlooks (Json.mapItems s) := by
  intro v keyed
  cases keyed with
  | @array items each =>
    change (items.map s).mapM c.read = items.mapM c.read
    induction items with
    | nil => rfl
    | cons v items ih =>
      obtain ⟨first, each⟩ := List.forall_mem_cons.1 each
      rw [List.map_cons, List.mapM_cons, List.mapM_cons, item v first, ih each]
  | null | bool | int | double | string | object => rfl

end JsonCodec

namespace JsonField

variable {key : String} {c : JsonCodec α} {set : α → μ → μ}

def Overlooks (f : JsonField μ) (s : Json → Json) : Prop :=
  ∀ (v : Json) (m : μ), v.Keyed → f.read (s v) m = f.read v m

theorem overlooks_required {get : μ → α} (value : c.Overlooks s) : (required key c get set).Overlooks s := by
  intro v m keyed
  simp only [required, value v keyed]

theorem overlooks_optional {get : μ → Option α} (value : c.Overlooks s) : (optional key c get set).Overlooks s := by
  intro v m keyed
  simp only [optional, value v keyed]

end JsonField

namespace JsonMessage

variable {c : JsonMessage μ}

def strip (c : JsonMessage μ) (inner : String → Json → Json) : Json → Json :=
  Json.strip (c.fields.map (·.key)) inner

theorem overlooks_strip {inner : String → Json → Json} (stays : ∀ key v, (inner key v).isNull = v.isNull)
    (each : ∀ f ∈ c.fields, f.Overlooks (inner f.key)) : c.codec.Overlooks (c.strip inner) := by
  intro v keyed
  cases keyed with
  | @object members distinct values =>
    apply foldlM_congr
    intro f member m
    rw [Json.member?_strip (List.mem_map_of_mem member) (stays f.key) distinct]
    cases found : Json.member? members f.key with
    | none => rfl
    | some v =>
      have here := ((Json.member?_eq_some_iff distinct).1 found).1
      exact each f member v m (values _ here)
  | null | bool | int | double | string | array => rfl

theorem overlooks_strip_flat (c : JsonMessage μ) : c.codec.Overlooks (c.strip fun _ v => v) :=
  overlooks_strip (fun _ _ => rfl) fun _ _ _ _ _ => rfl

end JsonMessage

end Protogen
