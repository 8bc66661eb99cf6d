import Protogen.Json.Scalar
import Protogen.Proofs.Dict

set_option autoImplicit false

namespace Protogen.Json

variable {key : String} {members entries : List (String × Json)}

theorem member?_eq_some_iff {v : Json} (distinct : (members.map (·.1)).Nodup) :
    member? members key = some v ↔ (key, v) ∈ members ∧ v.isNull = false := by
  simp only [member?, Option.filter_eq_some_iff, Option.map_eq_some_iff, Bool.not_eq_true']
  apply and_congr_left
  intro _
  constructor
  · rintro ⟨⟨key', v⟩, found, rfl⟩
    have same : key' = key := by simpa using List.find?_some found
    exact same ▸ List.mem_of_find?_eq_some found
  · intro member
    cases found : members.find? (·.1 == key) with
    | none => simpa using List.find?_eq_none.1 found (key, v) member
    | some m =>
      have same : m.1 = key := by simpa using List.find?_some found
      have one := List.inj_on_of_nodup_map distinct (List.mem_of_find?_eq_some found) member same
      exact ⟨m, rfl, congrArg Prod.snd one⟩

theorem member?_insertKey (key' : String) (v : Json) (entries : List (String × Json)) :
    member? (insertKey key' v entries) key =
      if key' = key then (some v).filter (!·.isNull) else member? entries key := by
  rw [member?, find?_insertKey]
  by_cases same : key' = key <;> simp [same, member?]

theorem member?_foldl_of_ne (absent : ∀ e ∈ members, e.1 ≠ key) :
    member? (members.foldl (fun acc m => insertKey m.1 m.2 acc) entries) key = member? entries key := by
  induction members generalizing entries with
  | nil => rfl
  | cons e members ih =>
    obtain ⟨other, absent⟩ := List.forall_mem_cons.1 absent
    rw [List.foldl_cons, ih absent, member?_insertKey, if_neg other]

theorem member?_foldl_of_mem {v : Json} (distinct : members.Pairwise fun a b => a.1 ≠ b.1)
    (member : (key, v) ∈ members) (present : v.isNull = false) :
    member? (members.foldl (fun acc m => insertKey m.1 m.2 acc) entries) key = some v := by
  induction members generalizing entries with
  | nil => cases member
  | cons e members ih =>
    obtain ⟨apart, distinct⟩ := List.pairwise_cons.1 distinct
    rcases List.mem_cons.1 member with rfl | member
    · have absent : ∀ e ∈ members, e.1 ≠ key := fun e other => (apart e other).symm
      rw [List.foldl_cons, member?_foldl_of_ne absent, member?_insertKey, if_pos rfl]
      simp [present]
    · exact ih distinct member

end Protogen.Json
