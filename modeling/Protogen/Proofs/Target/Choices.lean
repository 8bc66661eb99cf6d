import Mathlib.Data.List.Sigma
import Protogen.Proofs.Schema.ItemNames
import Protogen.Proofs.Target.Mapping

set_option autoImplicit false

namespace Protogen

def Schema.Message.choiceNames (options : Options) (m : Message) : List String :=
  if options.choice = .unions then (m.choices.zipIdx.filter fun c => m.fields.any (·.joins c.2)).map (·.1) else []

namespace Target

variable {ctx : Context} {owner : String} {f : Schema.Field} {g : Field} {choice : Nat}

theorem singular_ne_union (base : Base) (variant : String) : singular f base ≠ .union choice variant := by
  rw [singular]
  split <;> simp

theorem containerOf_eq_union {base : Base} : (∃ variant, containerOf ctx f base = .union choice variant) ↔
    ctx.options.choice = .unions ∧ f.joins choice = true := by
  rw [Schema.Field.joins]
  by_cases repeated : f.isRepeated = true
  · simp [containerOf, repeated]
  · by_cases unions : ctx.options.choice = .unions <;> by_cases explicit : f.explicitPresence = true <;>
      cases chosen : f.choice <;> simp [containerOf, repeated, unions, explicit, chosen, singular_ne_union]

theorem Field.union?_plain (success : Field.plain ctx owner f = .ok g) :
    g.union? = some choice ↔ ctx.options.choice = .unions ∧ f.joins choice = true := by
  obtain ⟨base, -, mapped⟩ := ok_of_bind success
  cases mapped
  rw [Field.union?_eq_some, containerOf_eq_union]

-- A field is mapped to a variant if and only if it joins the choice.
theorem Field.union?_ofSchema (success : Field.ofSchema ctx owner f = .ok g) :
    g.union? = some choice ↔ ctx.options.choice = .unions ∧ f.joins choice = true := by
  cases Field.mapped_ofSchema success with
  | plain _ success => exact Field.union?_plain success
  | map repeated _ _ _ _ _ _ _ result =>
    -- A map is repeated, so neither side holds.
    subst result
    simp [Field.union?, Schema.Field.joins, repeated]

theorem Struct.union?_ofMessage {name symbol : String} {m : Schema.Message} {s : Struct}
    (success : Struct.ofMessage ctx name symbol m = .ok s) :
    (∃ g ∈ s.fields, g.union? = some choice) ↔
      ctx.options.choice = .unions ∧ ∃ f ∈ m.fields, f.joins choice = true := by
  obtain ⟨fields, each, mapped⟩ := ok_of_bind success
  cases mapped
  have related := forall₂_of_mapM each
  constructor
  · rintro ⟨g, member, union⟩
    obtain ⟨f, member, success⟩ := exists_of_forall₂ related g member
    obtain ⟨unions, joins⟩ := (Field.union?_ofSchema success).1 union
    exact ⟨unions, f, member, joins⟩
  · rintro ⟨unions, f, member, joins⟩
    obtain ⟨g, member, success⟩ := exists_of_forall₂ related.flip f member
    exact ⟨g, member, (Field.union?_ofSchema success).2 ⟨unions, joins⟩⟩

theorem Struct.grouped_ofMessage {name symbol : String} {m : Schema.Message} {s : Struct}
    (success : Struct.ofMessage ctx name symbol m = .ok s) :
    Grouped symbol m.choices s.fields.zipIdx s.unions := by
  obtain ⟨fields, -, mapped⟩ := ok_of_bind success
  cases mapped
  exact grouped_foldl fields.zipIdx

theorem Struct.mem_choices {name symbol : String} {m : Schema.Message} {s : Struct}
    (success : Struct.ofMessage ctx name symbol m = .ok s) :
    choice ∈ s.unions.map (·.choice) ↔ ctx.options.choice = .unions ∧ ∃ f ∈ m.fields, f.joins choice = true := by
  rw [(Struct.grouped_ofMessage success).begun, ← Struct.union?_ofMessage success]
  simp [List.mem_iff_getElem?]

theorem Struct.perm_choices {name symbol : String} {m : Schema.Message} {s : Struct}
    (success : Struct.ofMessage ctx name symbol m = .ok s) (unions : ctx.options.choice = .unions)
    (inside : ∀ f ∈ m.fields, ∀ i, f.choice = some i → i < m.choices.length) :
    (s.unions.map (·.choice)).Perm ((m.choices.zipIdx.filter fun c => m.fields.any (·.joins c.2)).map (·.2)) := by
  have distinct : ((m.choices.zipIdx.filter fun c => m.fields.any (·.joins c.2)).map (·.2)).Nodup :=
    (List.nodup_zipIdx_map_snd m.choices).sublist ((List.filter_sublist ..).map _)
  refine (List.perm_ext_iff_of_nodup (Struct.grouped_ofMessage success).distinct distinct).2 fun i => ?_
  rw [Struct.mem_choices success, List.mem_map]
  constructor
  -- A choice that a field joins is one of the message, so it is found at its position.
  · rintro ⟨-, f, member, joins⟩
    have chosen : f.choice = some i := by
      simp only [Schema.Field.joins, Bool.and_eq_true, beq_iff_eq] at joins
      exact joins.2
    have here := List.getElem?_eq_getElem (inside f member i chosen)
    refine ⟨(_, i), List.mem_filter.2 ⟨List.mk_mem_zipIdx_iff_getElem?.2 here, ?_⟩, rfl⟩
    exact List.any_eq_true.2 ⟨f, member, joins⟩
  · rintro ⟨c, listed, rfl⟩
    obtain ⟨f, member, joins⟩ := List.any_eq_true.1 (List.mem_filter.1 listed).2
    exact ⟨unions, f, member, joins⟩

theorem Struct.perm_choiceNames {name symbol : String} {m : Schema.Message} {s : Struct}
    (success : Struct.ofMessage ctx name symbol m = .ok s)
    (inside : ∀ f ∈ m.fields, ∀ i, f.choice = some i → i < m.choices.length) :
    (s.unions.map fun u => m.choices.getD u.choice "").Perm (m.choiceNames ctx.options) := by
  rw [Schema.Message.choiceNames]
  split
  next unions =>
    -- Both lists are names of choices, told by their positions.
    have listed (joined : List (String × Nat)) (listed : ∀ c ∈ joined, c ∈ m.choices.zipIdx) :
        joined.map (·.1) = (joined.map (·.2)).map fun i => m.choices.getD i "" := by
      rw [List.map_map]
      refine List.map_congr_left fun c member => ?_
      have here := List.mk_mem_zipIdx_iff_getElem?.1 (listed c member)
      simp [here]
    have named := (Struct.perm_choices success unions inside).map fun i => m.choices.getD i ""
    rw [List.map_map] at named
    rw [listed _ fun c member => (List.mem_filter.1 member).1]
    exact named
  next properties =>
    have none : s.unions.map (·.choice) = [] :=
      List.eq_nil_iff_forall_not_mem.2 fun i member => properties ((Struct.mem_choices success).1 member).1
    rw [List.map_eq_nil_iff.1 none]
    exact .nil

theorem Struct.perm_choiceTypes {name symbol : String} {m : Schema.Message} {s : Struct}
    (success : Struct.ofMessage ctx name symbol m = .ok s)
    (inside : ∀ f ∈ m.fields, ∀ i, f.choice = some i → i < m.choices.length) :
    (s.unions.map (·.symbol)).Perm ((m.choiceTypes ctx.options).map (symbol ++ "_" ++ ·)) := by
  have symbols : s.unions.map (·.symbol) =
      (s.unions.map fun u => m.choices.getD u.choice "").map fun name => symbol ++ "_" ++ Naming.pascal name := by
    rw [List.map_map]
    exact List.map_congr_left (Struct.grouped_ofMessage success).symbols
  have types : (m.choiceTypes ctx.options).map (symbol ++ "_" ++ ·) =
      (m.choiceNames ctx.options).map fun name => symbol ++ "_" ++ Naming.pascal name := by
    rw [Schema.Message.choiceTypes, Schema.Message.choiceNames]
    split <;> simp
  rw [symbols, types]
  exact (Struct.perm_choiceNames success inside).map _

end Target

end Protogen
