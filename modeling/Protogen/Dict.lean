set_option autoImplicit false

namespace Protogen

variable {α : Type}

def insertKey (key : String) (value : α) : List (String × α) → List (String × α)
  | [] => [(key, value)]
  | (k, v) :: rest =>
    if key < k then (key, value) :: (k, v) :: rest
    else if key = k then (key, value) :: rest
    else (k, v) :: insertKey key value rest

def KeysSorted (entries : List (String × α)) : Prop :=
  entries.Pairwise fun a b => a.1 < b.1

theorem KeysSorted.nodup {entries : List (String × α)} (sorted : KeysSorted entries) :
    (entries.map (·.1)).Nodup := by
  refine List.pairwise_map.2 (sorted.imp fun before same => ?_)
  rw [same] at before
  exact String.lt_irrefl _ before

theorem mem_insertKey {key : String} {value : α} {e : String × α} {entries : List (String × α)}
    (h : e ∈ insertKey key value entries) : e = (key, value) ∨ e ∈ entries := by
  induction entries with
  | nil => simpa [insertKey] using h
  | cons hd tl ih =>
    simp only [insertKey] at h
    split at h
    · simpa using h
    · split at h <;> simp_all <;> grind

theorem keysSorted_insertKey (key : String) (value : α) {entries : List (String × α)}
    (h : KeysSorted entries) : KeysSorted (insertKey key value entries) := by
  induction entries with
  | nil => simp [insertKey, KeysSorted]
  | cons hd tl ih =>
    obtain ⟨hhd, htl⟩ := List.pairwise_cons.1 h
    simp only [insertKey]
    split
    next hlt =>
      refine List.pairwise_cons.2 ⟨fun b hb => ?_, h⟩
      rcases List.mem_cons.1 hb with rfl | hb
      · exact hlt
      · exact String.lt_trans hlt (hhd b hb)
    next hge =>
      split
      next heq =>
        subst heq
        exact List.pairwise_cons.2 ⟨hhd, htl⟩
      next hne =>
        refine List.pairwise_cons.2 ⟨fun b hb => ?_, ih htl⟩
        rcases mem_insertKey hb with rfl | hb
        · exact Std.lt_of_le_of_ne (String.not_lt.1 hge) (Ne.symm hne)
        · exact hhd b hb

structure Dict (α : Type) where
  entries : List (String × α)
  sorted : KeysSorted entries

namespace Dict

def empty : Dict α := ⟨[], List.Pairwise.nil⟩

instance : Inhabited (Dict α) := ⟨empty⟩

def insert (d : Dict α) (key : String) (value : α) : Dict α :=
  ⟨insertKey key value d.entries, keysSorted_insertKey key value d.sorted⟩

def get? (d : Dict α) (key : String) : Option α :=
  (d.entries.find? (·.1 == key)).map (·.2)

-- The last of several values of a key holds.
def ofList (entries : List (String × α)) : Dict α :=
  entries.foldl (fun d e => d.insert e.1 e.2) empty

end Dict

end Protogen
