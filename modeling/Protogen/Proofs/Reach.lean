import Mathlib.Data.List.Basic
import Mathlib.Logic.Relation
import Protogen.Reach

set_option autoImplicit false

namespace Protogen

/-- A name that is there from the start, or that a known name leads to. -/
inductive Reached (known : List String) (next : String → List String) (start : List String) : String → Prop
  | start {name : String} (member : name ∈ start) : Reached known next start name
  | step {name other : String} (here : Reached known next start name) (listed : name ∈ known)
      (leads : other ∈ next name) : Reached known next start other

variable {known met todo start : List String} {next : String → List String} {name : String}

theorem holds_of_mem_meet {holds : String → Prop}
    (step : ∀ name ∈ known, holds name → ∀ other ∈ next name, holds other) (before : ∀ name ∈ met, holds name)
    (first : ∀ name ∈ todo, holds name) : ∀ name ∈ meet known next met todo, holds name := by
  fun_induction meet known next met todo with
  | case1 met => exact before
  | case2 met name rest seen ih => exact ih before (List.forall_mem_cons.1 first).2
  | case3 met name rest unseen listed ih =>
    obtain ⟨here, later⟩ := List.forall_mem_cons.1 first
    have after := step name (List.contains_iff_mem.1 listed) here
    exact ih (List.forall_mem_cons.2 ⟨here, before⟩) (List.forall_mem_append.2 ⟨after, later⟩)
  | case4 met name rest unseen unlisted ih =>
    obtain ⟨here, later⟩ := List.forall_mem_cons.1 first
    exact ih (List.forall_mem_cons.2 ⟨here, before⟩) later

def Pending (known : List String) (next : String → List String) (met todo : List String) : Prop :=
  ∀ name ∈ met, name ∈ known → ∀ other ∈ next name, other ∈ met ∨ other ∈ todo

theorem closed_meet (pending : Pending known next met todo) :
    (∀ name, name ∈ met ∨ name ∈ todo → name ∈ meet known next met todo) ∧
      Pending known next (meet known next met todo) [] := by
  fun_induction meet known next met todo with
  | case1 met => exact ⟨fun _ member => member.resolve_right List.not_mem_nil, pending⟩
  | case2 met name rest seen ih =>
    have seen : name ∈ met := List.contains_iff_mem.1 seen
    have shift {other : String} (member : other ∈ met ∨ other ∈ name :: rest) : other ∈ met ∨ other ∈ rest := by
      rw [List.mem_cons] at member
      rcases member with member | rfl | member
      · exact .inl member
      · exact .inl seen
      · exact .inr member
    obtain ⟨kept, closed⟩ := ih fun name' member listed other leads => shift (pending name' member listed other leads)
    exact ⟨fun other member => kept other (shift member), closed⟩
  | case3 met name rest unseen listed ih =>
    -- What the name leads to is put in front of what was still to be looked at.
    have shift {other : String} (member : other ∈ met ∨ other ∈ name :: rest) :
        other ∈ name :: met ∨ other ∈ next name ++ rest := by
      simp only [List.mem_cons, List.mem_append] at member ⊢
      tauto
    refine (ih fun name' member listed' other leads => ?_).imp_left fun kept other member => kept other (shift member)
    rcases List.mem_cons.1 member with rfl | member
    · exact .inr (List.mem_append_left _ leads)
    · exact shift (pending name' member listed' other leads)
  | case4 met name rest unseen unlisted ih =>
    have shift {other : String} (member : other ∈ met ∨ other ∈ name :: rest) :
        other ∈ name :: met ∨ other ∈ rest := by
      simp only [List.mem_cons] at member ⊢
      tauto
    refine (ih fun name' member listed other leads => ?_).imp_left fun kept other member => kept other (shift member)
    rcases List.mem_cons.1 member with rfl | member
    -- The name has no part in the invariant, since it is not a known one.
    · exact absurd (List.contains_iff_mem.2 listed) unlisted
    · exact shift (pending name' member listed other leads)

theorem mem_reachable : name ∈ reachable known next start ↔ Reached known next start name := by
  constructor
  · intro member
    exact holds_of_mem_meet (fun _ listed here _ leads => .step here listed leads) nofun (fun _ => .start) name member
  · intro reached
    -- At the end nothing is left to be looked at, so what has been met is closed.
    have pending : Pending known next [] start := nofun
    obtain ⟨kept, closed⟩ := closed_meet pending
    induction reached with
    | start member => exact kept _ (.inr member)
    | step _ listed leads ih => exact (closed _ ih listed _ leads).resolve_right List.not_mem_nil

-- No name is met twice, so that the search ends where names lead to each other in circles.
theorem nodup_meet (distinct : met.Nodup) : (meet known next met todo).Nodup := by
  fun_induction meet known next met todo with
  | case1 met => exact distinct
  | case2 met name rest seen ih => exact ih distinct
  | case3 met name rest unseen listed ih => exact ih (List.nodup_cons.2 ⟨by simpa using unseen, distinct⟩)
  | case4 met name rest unseen unlisted ih => exact ih (List.nodup_cons.2 ⟨by simpa using unseen, distinct⟩)

theorem nodup_reachable : (reachable known next start).Nodup :=
  nodup_meet List.nodup_nil

theorem reached_iff_path {leads : String → String → Prop}
    (steps : ∀ name other, leads name other ↔ name ∈ known ∧ other ∈ next name) :
    Reached known next start name ↔ ∃ first ∈ start, Relation.ReflTransGen leads first name := by
  constructor
  · intro reached
    induction reached with
    | start member => exact ⟨_, member, .refl⟩
    | step _ listed next ih =>
      obtain ⟨first, member, path⟩ := ih
      exact ⟨first, member, path.tail ((steps _ _).2 ⟨listed, next⟩)⟩
  · intro ⟨first, member, path⟩
    induction path with
    | refl => exact .start member
    | tail _ leads ih =>
      obtain ⟨listed, next⟩ := (steps _ _).1 leads
      exact .step ih listed next

-- What is reached depends on the names as sets.
theorem Reached.congr {known' start' : List String} (listed : ∀ name, name ∈ known ↔ name ∈ known')
    (first : ∀ name, name ∈ start ↔ name ∈ start') (reached : Reached known next start name) :
    Reached known' next start' name := by
  induction reached with
  | start member => exact .start ((first _).1 member)
  | step _ member leads ih => exact .step ih ((listed _).1 member) leads

end Protogen
