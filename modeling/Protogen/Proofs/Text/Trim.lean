import Mathlib.Data.List.TakeWhile
import Protogen.Text.Blank

set_option autoImplicit false

namespace Protogen.Text

variable {p : Char → Bool}

theorem dropWhile_of_head {cs : List Char} (head : ∀ c, cs.head? = some c → p c = false) : cs.dropWhile p = cs := by
  cases cs with
  | nil => rfl
  | cons c cs => rw [List.dropWhile_cons_of_neg (by simp [head c rfl])]

theorem takeWhile_append_of_head {front back : List Char} (taken : ∀ c ∈ front, p c = true)
    (head : ∀ c, back.head? = some c → p c = false) : (front ++ back).takeWhile p = front := by
  rw [List.takeWhile_append_of_pos taken]
  cases back with
  | nil => simp
  | cons c cs => simp [head c rfl]

theorem dropWhile_append_of_head {front back : List Char} (taken : ∀ c ∈ front, p c = true)
    (head : ∀ c, back.head? = some c → p c = false) : (front ++ back).dropWhile p = back := by
  rw [List.dropWhile_append_of_pos taken, dropWhile_of_head head]

theorem dropEndWhile_of_last {core back : List Char} (last : ∀ c, core.getLast? = some c → p c = false)
    (dropped : ∀ c ∈ back, p c = true) : dropEndWhile p (core ++ back) = core := by
  have reversed : ∀ c ∈ back.reverse, p c = true := fun c member => dropped c (List.mem_reverse.1 member)
  have head : ∀ c, core.reverse.head? = some c → p c = false := by
    intro c head
    apply last
    rwa [List.head?_reverse] at head
  rw [dropEndWhile, List.reverse_append, List.dropWhile_append_of_pos reversed, dropWhile_of_head head,
    List.reverse_reverse]

theorem dropEndWhile_append {core back : List Char} (kept : ∀ c ∈ core, p c = false)
    (dropped : ∀ c ∈ back, p c = true) : dropEndWhile p (core ++ back) = core :=
  dropEndWhile_of_last (fun c last => kept c (List.mem_of_getLast? last)) dropped

theorem exists_dropEndWhile (p : Char → Bool) (cs : List Char) :
    ∃ back, cs = dropEndWhile p cs ++ back ∧ ∀ c ∈ back, p c = true := by
  refine ⟨(cs.reverse.takeWhile p).reverse, ?_, fun c member => ?_⟩
  next =>
    rw [dropEndWhile, ← List.reverse_append, List.takeWhile_append_dropWhile, List.reverse_reverse]
  next => exact List.all_eq_true.1 List.all_takeWhile c (List.mem_reverse.1 member)

def Blank (cs : List Char) : Prop :=
  ∀ c ∈ cs, isBlank c = true

structure Trimmed (cs : List Char) : Prop where
  first : ∀ c, cs.head? = some c → isBlank c = false
  last : ∀ c, cs.getLast? = some c → isBlank c = false

theorem Trimmed.of_none {cs : List Char} (none : ∀ c ∈ cs, isBlank c = false) : Trimmed cs :=
  ⟨fun c head => none c (List.mem_of_head? head), fun c last => none c (List.mem_of_getLast? last)⟩

theorem trim_append {front core back : List Char} (blank : Blank front) (trimmed : Trimmed core)
    (blank' : Blank back) : trim (front ++ (core ++ back)) = core := by
  rw [trim, List.dropWhile_append_of_pos blank]
  cases core with
  | nil =>
    rw [List.nil_append, List.dropWhile_eq_nil_iff.2 blank']
    rfl
  | cons c cs =>
    have start : (c :: cs ++ back).dropWhile isBlank = c :: cs ++ back :=
      dropWhile_of_head fun d head => trimmed.first d (by simpa using head)
    rw [start, dropEndWhile_of_last trimmed.last blank']

theorem trim_of_none {cs : List Char} (none : ∀ c ∈ cs, isBlank c = false) : trim cs = cs := by
  have empty : Blank [] := nofun
  simpa using trim_append empty (.of_none none) empty

theorem exists_trim (cs : List Char) : ∃ front back, cs = front ++ (trim cs ++ back) ∧ Blank front ∧ Blank back := by
  obtain ⟨back, split, blank⟩ := exists_dropEndWhile isBlank (cs.dropWhile isBlank)
  refine ⟨cs.takeWhile isBlank, back, ?_, List.all_eq_true.1 List.all_takeWhile, blank⟩
  rw [trim, ← split, List.takeWhile_append_dropWhile]

end Protogen.Text
