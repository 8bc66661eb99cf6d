set_option autoImplicit false

namespace Protogen

private theorem length_filter_lt {α : Type} {p q : α → Bool} {l : List α} {a : α} (ha : a ∈ l)
    (hp : p a = true) (hq : q a = false) (h : ∀ x, q x = true → p x = true) :
    (l.filter q).length < (l.filter p).length := by
  rw [← List.countP_eq_length_filter, ← List.countP_eq_length_filter]
  induction l with
  | nil => simp at ha
  | cons b l ih =>
    have hle := List.countP_mono_left (l := l) fun x _ => h x
    rcases List.mem_cons.1 ha with rfl | ha
    · simp [hp, hq]
      omega
    · have := ih ha
      have hb := h b
      simp only [List.countP_cons]
      grind

/-- The names met from `todo` on, besides those that have been `met`. A name that is known leads to
`next`, once; any other leads nowhere. -/
def meet (known : List String) (next : String → List String) (met todo : List String) :
    List String :=
  match todo with
  | [] => met
  | name :: rest =>
    if met.contains name then meet known next met rest
    else if known.contains name then meet known next (name :: met) (next name ++ rest)
    else meet known next (name :: met) rest
termination_by ((known.filter fun n => !met.contains n).length, todo.length)
decreasing_by
  · exact Prod.Lex.right _ (by simp)
  · apply Prod.Lex.left
    rename_i hm hk
    refine length_filter_lt (a := name) (by simpa using hk) (by simpa using hm) (by simp) fun x hx => ?_
    simp only [List.contains_cons, Bool.not_or, Bool.and_eq_true] at hx
    exact hx.2
  · refine Prod.Lex.right' _ ?_ (Nat.lt_succ_self rest.length)
    rw [← List.countP_eq_length_filter, ← List.countP_eq_length_filter]
    refine List.countP_mono_left fun x _ hx => ?_
    simp only [List.contains_cons, Bool.not_or, Bool.and_eq_true] at hx
    exact hx.2

def reachable (known : List String) (next : String → List String) (start : List String) :
    List String :=
  meet known next [] start

end Protogen
