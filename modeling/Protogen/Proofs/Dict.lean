import Mathlib.Data.List.Nodup
import Protogen.Dict

set_option autoImplicit false

namespace Protogen

variable {α : Type}

section Keys

variable {κ : Type} [DecidableEq κ] {key : α → κ} {as as' : List α} {a : α} {k : κ}

theorem find?_key_iff (distinct : (as.map key).Nodup) : as.find? (key · == k) = some a ↔ a ∈ as ∧ key a = k := by
  constructor
  · intro found
    have here := List.find?_some (p := fun a => key a == k) found
    exact ⟨List.mem_of_find?_eq_some found, eq_of_beq here⟩
  · rintro ⟨member, rfl⟩
    cases found : as.find? (fun b => key b == key a) with
    | none => exact absurd (List.find?_eq_none.1 found a member) (by simp)
    | some b =>
      have here := List.find?_some (p := fun b => key b == key a) found
      rw [List.inj_on_of_nodup_map distinct (List.mem_of_find?_eq_some found) member (eq_of_beq here)]

theorem find?_of_perm (distinct : (as.map key).Nodup) (perm : as.Perm as') (k : κ) :
    as.find? (key · == k) = as'.find? (key · == k) := by
  refine Option.ext fun a => ?_
  rw [find?_key_iff distinct, find?_key_iff ((perm.map key).nodup_iff.1 distinct), perm.mem_iff]

theorem filter_key (distinct : (as.map key).Nodup) (member : a ∈ as) : as.filter (key · == key a) = [a] := by
  classical
  have same : ∀ b ∈ as, (key b == key a) = (b == a) := fun b listed => by
    rw [Bool.eq_iff_iff, beq_iff_eq, beq_iff_eq]
    exact ⟨List.inj_on_of_nodup_map distinct listed member, congrArg key⟩
  rw [List.filter_congr same, List.filter_beq, List.count_eq_one_of_mem distinct.of_map member]
  rfl

end Keys

theorem insertKey_last {key : String} {value : α} {entries : List (String × α)}
    (after : ∀ e ∈ entries, e.1 < key) : insertKey key value entries = entries ++ [(key, value)] := by
  induction entries with
  | nil => rfl
  | cons e entries ih =>
    obtain ⟨k, v⟩ := e
    have before : k < key := after (k, v) (List.mem_cons_self ..)
    have later : ¬key < k := String.lt_asymm before
    have other : key ≠ k := by
      rintro rfl
      exact String.lt_irrefl _ before
    simp only [insertKey, later, other, if_false, List.cons_append]
    rw [ih fun e member => after e (List.mem_cons_of_mem _ member)]

theorem find?_insertKey (key' : String) (value : α) (entries : List (String × α)) (key : String) :
    (insertKey key' value entries).find? (·.1 == key) =
      if key' = key then some (key', value) else entries.find? (·.1 == key) := by
  induction entries with
  | nil => by_cases same : key' = key <;> simp [insertKey, same]
  | cons e entries ih =>
    obtain ⟨k, v⟩ := e
    by_cases before : key' < k
    · by_cases same : key' = key
      · subst same
        simp [insertKey, before]
      · simp [insertKey, before, same]
    · by_cases here : key' = k
      · subst here
        by_cases same : key' = key <;> simp [insertKey, same]
      · -- The key goes further back, so the first entry stays the one that is found under its own key.
        by_cases first : k = key
        · subst first
          simp [insertKey, before, here]
        · simpa [insertKey, before, here, first] using ih

section Order

variable {key key' k : String} {value value' v : α} {entries : List (String × α)}

theorem key_cases (key k : String) : key < k ∨ key = k ∨ k < key := by
  by_cases before : key < k
  next => exact .inl before
  next =>
    by_cases same : key = k
    next => exact .inr (.inl same)
    next => exact .inr (.inr (Std.lt_of_le_of_ne (String.not_lt.1 before) (Ne.symm same)))

theorem insertKey_of_lt (before : key < k) :
    insertKey key value ((k, v) :: entries) = (key, value) :: (k, v) :: entries :=
  if_pos before

theorem insertKey_self : insertKey k value ((k, v) :: entries) = (k, value) :: entries := by
  simp [insertKey]

theorem insertKey_of_gt (after : k < key) :
    insertKey key value ((k, v) :: entries) = (k, v) :: insertKey key value entries := by
  have other : key ≠ k := by
    rintro rfl
    exact String.lt_irrefl _ after
  simp [insertKey, String.lt_asymm after, other]

theorem insertKey_insertKey : insertKey key value (insertKey key value' entries) = insertKey key value entries := by
  induction entries with
  | nil => exact insertKey_self
  | cons e entries ih =>
    obtain ⟨k, v⟩ := e
    rcases key_cases key k with before | rfl | after
    · rw [insertKey_of_lt before, insertKey_self, insertKey_of_lt before]
    · rw [insertKey_self, insertKey_self, insertKey_self]
    · rw [insertKey_of_gt after, insertKey_of_gt after, ih, insertKey_of_gt after]

theorem insertKey_comm_of_lt (first : key < key') :
    insertKey key value (insertKey key' value' entries) = insertKey key' value' (insertKey key value entries) := by
  induction entries with
  | nil =>
    change insertKey key value [(key', value')] = insertKey key' value' [(key, value)]
    rw [insertKey_of_lt first, insertKey_of_gt first]
    rfl
  | cons e entries ih =>
    obtain ⟨k, v⟩ := e
    rcases key_cases key k with before | rfl | after
    · -- Whatever stands in front after the second key is put there, the first goes before it.
      rw [insertKey_of_lt before, insertKey_of_gt first]
      rcases key_cases key' k with before' | rfl | after'
      · rw [insertKey_of_lt before', insertKey_of_lt first]
      · rw [insertKey_self, insertKey_of_lt first]
      · rw [insertKey_of_gt after', insertKey_of_lt before]
    · rw [insertKey_of_gt first, insertKey_self, insertKey_self, insertKey_of_gt first]
    · have after' := String.lt_trans after first
      rw [insertKey_of_gt after', insertKey_of_gt after, ih, insertKey_of_gt after, insertKey_of_gt after']

theorem insertKey_comm (other : key ≠ key') :
    insertKey key value (insertKey key' value' entries) = insertKey key' value' (insertKey key value entries) := by
  rcases key_cases key key' with first | same | last
  · exact insertKey_comm_of_lt first
  · exact absurd same other
  · exact (insertKey_comm_of_lt last).symm

theorem perm_insertKey (free : key ∉ entries.map (·.1)) :
    (insertKey key value entries).Perm ((key, value) :: entries) := by
  induction entries with
  | nil => exact .refl _
  | cons e entries ih =>
    obtain ⟨k, v⟩ := e
    rw [List.map_cons, List.mem_cons, not_or] at free
    rcases key_cases key k with before | same | after
    · rw [insertKey_of_lt before]
    · exact absurd same free.1
    · rw [insertKey_of_gt after]
      exact ((ih free.2).cons _).trans (.swap ..)

theorem lookup_eq_find? (key : String) (entries : List (String × α)) :
    entries.lookup key = (entries.find? (·.1 == key)).map (·.2) := by
  induction entries with
  | nil => rfl
  | cons e entries ih =>
    rw [List.lookup_cons, List.find?_cons, BEq.comm, ih]
    cases e.1 == key <;> rfl

theorem lookup_insertKey : (insertKey key' value entries).lookup key =
    if key' = key then some value else entries.lookup key := by
  rw [lookup_eq_find?, lookup_eq_find?, find?_insertKey]
  by_cases same : key' = key <;> simp [same]

end Order

namespace Dict

theorem get?_insert (d : Dict α) (key' : String) (value : α) (key : String) :
    (d.insert key' value).get? key = if key' = key then some value else d.get? key := by
  rw [get?, insert, find?_insertKey]
  by_cases same : key' = key <;> simp [same, get?]

theorem insert_comm {key key' : String} (other : key ≠ key') (d : Dict α) (value value' : α) :
    (d.insert key' value').insert key value = (d.insert key value).insert key' value' := by
  simp only [insert, insertKey_comm other]

theorem value_eq_of_mem {d : Dict α} {key : String} {value value' : α} (entry : (key, value) ∈ d.entries)
    (entry' : (key, value') ∈ d.entries) : value = value' :=
  congrArg Prod.snd (List.inj_on_of_nodup_map d.sorted.nodup entry entry' rfl)

theorem get?_eq_some_iff {d : Dict α} {key : String} {value : α} :
    d.get? key = some value ↔ (key, value) ∈ d.entries := by
  rw [get?, Option.map_eq_some_iff]
  constructor
  · rintro ⟨⟨k, v⟩, found, rfl⟩
    cases eq_of_beq (List.find?_some found :)
    exact List.mem_of_find?_eq_some found
  · intro entry
    cases found : d.entries.find? (·.1 == key) with
    | none => exact absurd (beq_self_eq_true key) (List.find?_eq_none.1 found _ entry)
    | some e =>
      have same : e.1 = key := eq_of_beq (List.find?_some found :)
      have entry' : (key, e.2) ∈ d.entries := same ▸ List.mem_of_find?_eq_some found
      exact ⟨e, rfl, value_eq_of_mem entry' entry⟩

theorem get?_eq_none_iff {d : Dict α} {key : String} : d.get? key = none ↔ key ∉ d.entries.map (·.1) := by
  simp [Option.eq_none_iff_forall_ne_some, get?_eq_some_iff]

theorem insert_comm_of_mem {d : Dict α} {key key' : String} {value value' : α} (entry : (key, value) ∈ d.entries)
    (entry' : (key', value') ∈ d.entries) (e : Dict α) :
    (e.insert key' value').insert key value = (e.insert key value).insert key' value' := by
  by_cases same : key = key'
  next =>
    subst same
    rw [value_eq_of_mem entry entry']
  next => exact insert_comm same e value value'

theorem entries_foldl_insert {rest : List (String × α)} {d : Dict α}
    (sorted : KeysSorted (d.entries ++ rest)) :
    (rest.foldl (fun d e => d.insert e.1 e.2) d).entries = d.entries ++ rest := by
  induction rest generalizing d with
  | nil => simp
  | cons e rest ih =>
    have after : ∀ e' ∈ d.entries, e'.1 < e.1 := fun e' member =>
      (List.pairwise_append.1 sorted).2.2 e' member e (List.mem_cons_self ..)
    have entries : (d.insert e.1 e.2).entries = d.entries ++ [e] := insertKey_last after
    rw [List.foldl_cons, ih, entries, List.append_assoc]
    · rfl
    · rw [entries, List.append_assoc]
      exact sorted

theorem ofList_entries (d : Dict α) : ofList d.entries = d := by
  have entries : (d.entries.foldl (fun d e => d.insert e.1 e.2) empty).entries = [] ++ d.entries :=
    entries_foldl_insert d.sorted
  obtain ⟨es, sorted⟩ := d
  generalize collected : ofList es = d'
  obtain ⟨es', sorted'⟩ := d'
  have same : es' = es := by
    rw [ofList] at collected
    rw [collected] at entries
    exact entries
  cases same
  rfl

def onto (d e : Dict α) : Dict α :=
  d.entries.foldl (fun e entry => e.insert entry.1 entry.2) e

theorem onto_empty (d : Dict α) : d.onto empty = d :=
  ofList_entries d

theorem get?_foldl_insert {entries : List (String × α)} (sorted : KeysSorted entries) (e : Dict α)
    (key : String) : (entries.foldl (fun e entry => e.insert entry.1 entry.2) e).get? key =
      ((entries.find? (·.1 == key)).map (·.2)).or (e.get? key) := by
  induction entries generalizing e with
  | nil => rfl
  | cons entry entries ih =>
    obtain ⟨first, sorted⟩ := List.pairwise_cons.1 sorted
    rw [List.foldl_cons, ih sorted, get?_insert]
    by_cases same : entry.1 = key
    next =>
      -- The keys differ, so that no later entry has this one.
      have later : entries.find? (·.1 == key) = none := by
        apply List.find?_eq_none.2
        intro other member found
        have before := first other member
        rw [same, eq_of_beq found] at before
        exact String.lt_irrefl _ before
      simp [later, same]
    next => simp [same]

theorem get?_onto (d e : Dict α) (key : String) : (d.onto e).get? key = (d.get? key).or (e.get? key) :=
  get?_foldl_insert d.sorted e key

end Dict

end Protogen
