import Mathlib.Data.List.Dedup
import Protogen.Code.ModuleIndex
import Protogen.Proofs.Dict

set_option autoImplicit false

namespace Protogen.Code

namespace Module

def alter? (name : String) (change : Option Module → Option Module) (level : List (String × Module)) :
    Option (List (String × Module)) :=
  (change (level.lookup name)).map fun m => insertKey name m level

def asFile? : Option Module → Option Module
  | some (directory _) => none
  | _ => some file

def asDirectory? (leaf : String) (dirs : List String) : Option Module → Option Module
  | some file => none
  | some (directory children) => (insertPath? leaf dirs children).map directory
  | none => (insertPath? leaf dirs []).map directory

variable {leaf leaf' d d' : String} {dirs dirs' : List String} {level : List (String × Module)}

theorem insertPath?_nil : insertPath? leaf [] = alter? leaf asFile? := by
  funext level
  rw [insertPath?, alter?]
  rcases level.lookup leaf with _ | _ | _ <;> rfl

theorem insertPath?_cons : insertPath? leaf (d :: dirs) = alter? d (asDirectory? leaf dirs) := by
  funext level
  rw [insertPath?, alter?]
  rcases level.lookup d with _ | _ | children
  · simp only [asDirectory?]
    cases insertPath? leaf dirs [] <;> rfl
  · rfl
  · simp only [asDirectory?]
    cases insertPath? leaf dirs children <;> rfl

variable {name name' : String} {change change' : Option Module → Option Module}

theorem alter?_comm (other : name ≠ name') : (alter? name change level).bind (alter? name' change') =
    (alter? name' change' level).bind (alter? name change) := by
  simp only [alter?, Option.bind_map, Function.comp_def, lookup_insertKey, if_neg other, if_neg (Ne.symm other)]
  cases change (level.lookup name) with
  | none => simp
  | some m =>
    cases change' (level.lookup name') with
    | none => rfl
    | some m' => simp [insertKey_comm other]

theorem alter?_alter? : (alter? name change level).bind (alter? name change') =
    alter? name (fun m => (change m).bind fun m' => change' (some m')) level := by
  simp only [alter?, Option.bind_map, Function.comp_def, lookup_insertKey, if_true, Option.map_bind,
    insertKey_insertKey]

-- A name cannot be that of a file and of a directory, whichever comes first.
theorem asFile?_asDirectory? (m : Option Module) :
    (asFile? m).bind (fun m' => asDirectory? leaf dirs (some m')) = none ∧
      (asDirectory? leaf dirs m).bind (fun m' => asFile? (some m')) = none := by
  rcases m with _ | _ | children
  · refine ⟨rfl, ?_⟩
    simp only [asDirectory?]
    cases insertPath? leaf dirs [] <;> rfl
  · exact ⟨rfl, rfl⟩
  · refine ⟨rfl, ?_⟩
    simp only [asDirectory?]
    cases insertPath? leaf dirs children <;> rfl

theorem insertPath?_file_directory : (insertPath? leaf [] level).bind (insertPath? leaf' (d :: dirs)) =
    (insertPath? leaf' (d :: dirs) level).bind (insertPath? leaf []) := by
  rw [insertPath?_nil, insertPath?_cons]
  by_cases same : leaf = d
  next =>
    subst same
    rw [alter?_alter?, alter?_alter?, alter?, alter?, (asFile?_asDirectory? _).1, (asFile?_asDirectory? _).2]
  next => exact alter?_comm same

theorem insertPath?_comm (leaf leaf' : String) (dirs dirs' : List String) (level : List (String × Module)) :
    (insertPath? leaf dirs level).bind (insertPath? leaf' dirs') =
      (insertPath? leaf' dirs' level).bind (insertPath? leaf dirs) := by
  induction dirs generalizing dirs' level with
  | nil =>
    cases dirs' with
    | nil =>
      rw [insertPath?_nil, insertPath?_nil]
      by_cases same : leaf = leaf'
      next => rw [same]
      next => exact alter?_comm same
    | cons d' dirs' => exact insertPath?_file_directory
  | cons d dirs ih =>
    cases dirs' with
    | nil => exact insertPath?_file_directory.symm
    | cons d' dirs' =>
      rw [insertPath?_cons, insertPath?_cons]
      by_cases same : d = d'
      next =>
        subst same
        rw [alter?_alter?, alter?_alter?, alter?, alter?]
        -- Both files come into one directory, which may have to be made for the first of them.
        have inside (children : List (String × Module)) :
            ((insertPath? leaf dirs children).map directory).bind (fun m => asDirectory? leaf' dirs' (some m)) =
              ((insertPath? leaf' dirs' children).map directory).bind
                (fun m => asDirectory? leaf dirs (some m)) := by
          have same := congrArg (Option.map directory) (ih dirs' children)
          simpa only [Option.map_bind, Option.bind_map, Function.comp_def, asDirectory?] using same
        rcases level.lookup d with _ | _ | children
        · exact congrArg _ (inside [])
        · rfl
        · exact congrArg _ (inside children)
      next => exact alter?_comm same

theorem insertPath?_self (leaf : String) (dirs : List String) (level : List (String × Module)) :
    (insertPath? leaf dirs level).bind (insertPath? leaf dirs) = insertPath? leaf dirs level := by
  induction dirs generalizing level with
  | nil =>
    rw [insertPath?_nil, alter?_alter?, alter?, alter?]
    rcases level.lookup leaf with _ | _ | _ <;> rfl
  | cons d dirs ih =>
    have inside (children : List (String × Module)) :
        ((insertPath? leaf dirs children).map directory).bind (fun m => asDirectory? leaf dirs (some m)) =
          (insertPath? leaf dirs children).map directory := by
      have same := congrArg (Option.map directory) (ih children)
      simpa only [Option.map_bind, Option.bind_map, Function.comp_def, asDirectory?] using same
    rw [insertPath?_cons, alter?_alter?, alter?, alter?]
    rcases level.lookup d with _ | _ | children
    · exact congrArg _ (inside [])
    · rfl
    · exact congrArg _ (inside children)

theorem insert?_self (level : List (String × Module)) (name : String) :
    (insert? level name).bind (insert? · name) = insert? level name := by
  cases last : (pathOf name).getLast? with
  | none => simp [insert?, last]
  | some leaf =>
    simp only [insert?, last]
    exact insertPath?_self leaf _ level

theorem insert?_comm (level : List (String × Module)) (name name' : String) :
    (insert? level name).bind (insert? · name') = (insert? level name').bind (insert? · name) := by
  cases last : (pathOf name).getLast? with
  | none => simp [insert?, last]
  | some leaf =>
    cases last' : (pathOf name').getLast? with
    | none => simp [insert?, last']
    | some leaf' =>
      simp only [insert?, last, last']
      exact insertPath?_comm leaf leaf' _ _ level

theorem foldlM_insert?_of_perm {names names' : List String} (perm : names.Perm names')
    (level : List (String × Module)) : names.foldlM insert? level = names'.foldlM insert? level := by
  induction perm generalizing level with
  | nil => rfl
  | cons name _ ih =>
    rw [List.foldlM_cons, List.foldlM_cons]
    exact congrArg _ (funext ih)
  | swap name name' names =>
    have first (level : List (String × Module)) (a b : String) : (a :: b :: names).foldlM insert? level =
        ((insert? level a).bind (insert? · b)).bind fun level => names.foldlM insert? level := by
      simp only [List.foldlM_cons, Option.bind_assoc]
      rfl
    rw [first, first, insert?_comm]
  | trans _ _ ih ih' => exact (ih level).trans (ih' level)

theorem foldlM_insert?_of_mem {names : List String} {name : String} (member : name ∈ names)
    (level : List (String × Module)) : (name :: names).foldlM insert? level = names.foldlM insert? level := by
  obtain ⟨before, after, rfl⟩ := List.append_of_mem member
  have moved : (before ++ name :: after).Perm (name :: (before ++ after)) := List.perm_middle
  rw [foldlM_insert?_of_perm (moved.cons name), foldlM_insert?_of_perm moved]
  simp only [List.foldlM_cons, Option.bind_eq_bind, ← Option.bind_assoc, insert?_self]

theorem foldlM_insert?_dedup (names : List String) (level : List (String × Module)) :
    names.dedup.foldlM insert? level = names.foldlM insert? level := by
  induction names generalizing level with
  | nil => rfl
  | cons name names ih =>
    by_cases member : name ∈ names
    next => rw [List.dedup_cons_of_mem member, ih, foldlM_insert?_of_mem member]
    next =>
      rw [List.dedup_cons_of_notMem member, List.foldlM_cons, List.foldlM_cons]
      exact congrArg _ (funext ih)

end Module

-- The index of modules does not tell in which order the files were generated.
theorem moduleIndex?_of_perm {names names' : List String} (perm : names.Perm names') :
    moduleIndex? names = moduleIndex? names' := by
  rw [moduleIndex?, moduleIndex?, Module.ofFiles?, Module.ofFiles?, Module.foldlM_insert?_of_perm perm]

theorem moduleIndex?_congr {names names' : List String} (same : ∀ name, name ∈ names ↔ name ∈ names') :
    moduleIndex? names = moduleIndex? names' := by
  have perm : names.dedup.Perm names'.dedup := by
    refine (List.perm_ext_iff_of_nodup (List.nodup_dedup _) (List.nodup_dedup _)).2 fun name => ?_
    rw [List.mem_dedup, List.mem_dedup, same]
  have deduped (names : List String) : moduleIndex? names.dedup = moduleIndex? names := by
    rw [moduleIndex?, moduleIndex?, Module.ofFiles?, Module.ofFiles?, Module.foldlM_insert?_dedup]
  rw [← deduped names, moduleIndex?_of_perm perm, deduped]

end Protogen.Code
