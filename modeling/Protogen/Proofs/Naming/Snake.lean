import Protogen.Proofs.Naming.Identifier

set_option autoImplicit false

namespace Protogen

namespace Text

def IsAscii (cs : List Char) : Prop :=
  ∀ c ∈ cs, c.toNat < 128

instance (cs : List Char) : Decidable (IsAscii cs) :=
  List.decidableBAll (fun c : Char => c.toNat < 128) cs

variable {c : Char} {cs : List Char}

theorem forall_ascii {p : Char → Prop} (each : ∀ n < 128, p (Char.ofNat n)) (ascii : c.toNat < 128) : p c :=
  Char.ofNat_toNat c ▸ each c.toNat ascii

set_option maxRecDepth 4000 in
theorem isUpper_of_mem_lowerChar (ascii : c.toNat < 128) : ∀ x ∈ lowerChar c, isUpper x = false := by
  have none : (lowerChar c).any isUpper = false :=
    forall_ascii (p := fun c => (lowerChar c).any isUpper = false) (by decide) ascii
  exact fun x member => Bool.eq_false_iff.2 (List.any_eq_false.1 none x member)

set_option maxRecDepth 4000 in
theorem lowerChar_of_not_isUpper (ascii : c.toNat < 128) : isUpper c = false → lowerChar c = [c] :=
  forall_ascii (p := fun c => isUpper c = false → lowerChar c = [c]) (by decide) ascii

theorem lower_eq_flatMap (plain : 'Σ' ∉ cs) : lower cs = cs.flatMap lowerChar := by
  suffices each : ∀ before, lowerAfter before cs = cs.flatMap lowerChar from each []
  induction cs with
  | nil => exact fun _ => rfl
  | cons c cs ih =>
    intro before
    rw [List.mem_cons, not_or] at plain
    rw [lowerAfter, ih plain.2, List.flatMap_cons, if_neg (Ne.symm plain.1)]

theorem IsAscii.not_mem_sigma (ascii : IsAscii cs) : 'Σ' ∉ cs :=
  fun member => absurd (ascii _ member) (by decide)

end Text

namespace Naming

open Text (IsAscii isUpper isUpper_of_mem_lowerChar lower lowerChar lowerChar_of_not_isUpper)

variable {cs : List Char}

-- Whatever stands before a part of a name, no capital is left in it.
theorem isUpper_of_mem_snakeFrom (ascii : IsAscii cs) (before : Option Char) :
    ∀ x ∈ snakeFrom before cs, isUpper x = false := by
  induction cs generalizing before with
  | nil => exact List.forall_mem_nil _
  | cons c cs ih =>
    obtain ⟨own, ascii⟩ := List.forall_mem_cons.1 ascii
    rw [snakeFrom, List.forall_mem_append]
    refine ⟨?_, ih ascii (some c)⟩
    split
    next =>
      have underscore (begins : Bool) : ∀ x ∈ if begins then ['_'] else [], isUpper x = false := by
        cases begins with
        | false => exact List.forall_mem_nil _
        | true => exact List.forall_mem_singleton.2 rfl
      exact List.forall_mem_append.2 ⟨underscore _, isUpper_of_mem_lowerChar own⟩
    next small => simpa using small

theorem filter_snakeFrom (ascii : IsAscii cs) (before : Option Char) :
    (snakeFrom before cs).filter (· != '_') = (cs.flatMap lowerChar).filter (· != '_') := by
  induction cs generalizing before with
  | nil => rfl
  | cons c cs ih =>
    obtain ⟨own, ascii⟩ := List.forall_mem_cons.1 ascii
    rw [snakeFrom, List.flatMap_cons, List.filter_append, List.filter_append, ih ascii]
    congr 1
    split
    next => split <;> rfl
    next small => rw [lowerChar_of_not_isUpper own (by simpa using small)]

/-- The snake case of an ASCII name has no capital, is its own snake case, and is the name in lower case but for
underscores. -/
theorem snake_stable {name : String} (ascii : IsAscii name.toList) :
    (∀ c ∈ (snake name).toList, isUpper c = false) ∧ snake (snake name) = snake name ∧
      (snake name).toList.filter (· != '_') = (lower name.toList).filter (· != '_') := by
  have letters : (snake name).toList = snakeFrom none name.toList := String.toList_ofList
  have small : ∀ c ∈ (snake name).toList, isUpper c = false := by
    rw [letters]
    exact isUpper_of_mem_snakeFrom ascii none
  refine ⟨small, snake_eq_self small, ?_⟩
  rw [letters, filter_snakeFrom ascii, Text.lower_eq_flatMap ascii.not_mem_sigma]

-- Capitals in a row, digits, and underscores at both ends and in the middle.
theorem snake_stable_capitals : IsAscii "_GetHTTP2Status__IDs_".toList ∧
    snake "_GetHTTP2Status__IDs_" = "_get_http2_status__i_ds_" ∧
    snake (snake "_GetHTTP2Status__IDs_") = snake "_GetHTTP2Status__IDs_" ∧
    (snake "_GetHTTP2Status__IDs_").toList.filter (· != '_') = "gethttp2statusids".toList := by
  have ascii : IsAscii "_GetHTTP2Status__IDs_".toList := by decide
  obtain ⟨-, again, letters⟩ := snake_stable ascii
  exact ⟨ascii, by decide, again, letters.trans (by decide)⟩

end Naming

end Protogen
