set_option autoImplicit false

namespace Protogen.Text

private def replaceAfter (mark replacement : List Char) (skip : Nat) : List Char → List Char
  | [] => []
  | c :: cs =>
    match skip with
    | k + 1 => replaceAfter mark replacement k cs
    | 0 =>
      if mark.isPrefixOf (c :: cs) then
        replacement ++ replaceAfter mark replacement (mark.length - 1) cs
      else c :: replaceAfter mark replacement 0 cs

def replaceAll (cs mark replacement : List Char) : List Char :=
  replaceAfter mark replacement 0 cs

private theorem mem_of_mem_replaceAfter {mark replacement : List Char} {skip : Nat} {cs : List Char} {c : Char}
    (member : c ∈ replaceAfter mark replacement skip cs) : c ∈ cs ∨ c ∈ replacement := by
  induction cs generalizing skip with
  | nil => exact .inl member
  | cons first cs ih =>
    cases skip with
    | succ k => exact (ih member).imp_left (List.mem_cons_of_mem first)
    | zero =>
      rw [replaceAfter] at member
      split at member
      next =>
        obtain member | member := List.mem_append.1 member
        · exact .inr member
        · exact (ih member).imp_left (List.mem_cons_of_mem first)
      next =>
        obtain rfl | member := List.mem_cons.1 member
        · exact .inl List.mem_cons_self
        · exact (ih member).imp_left (List.mem_cons_of_mem first)

theorem mem_of_mem_replaceAll {cs mark replacement : List Char} {c : Char}
    (member : c ∈ replaceAll cs mark replacement) : c ∈ cs ∨ c ∈ replacement :=
  mem_of_mem_replaceAfter member

end Protogen.Text
