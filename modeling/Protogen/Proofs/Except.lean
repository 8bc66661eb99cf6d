import Mathlib.Data.List.Perm.Basic

set_option autoImplicit false

namespace Protogen

variable {α β ε : Type}

theorem bind_eq_ok {first : Except ε α} {next : α → Except ε β} {b : β} :
    (first >>= next) = .ok b ↔ ∃ a, first = .ok a ∧ next a = .ok b := by
  cases first with
  | error e => exact ⟨nofun, nofun⟩
  | ok a => exact ⟨fun both => ⟨a, rfl, both⟩, fun ⟨_, rfl, later⟩ => later⟩

theorem check_eq_ok {check : Except ε Unit} {next : Unit → Except ε β} {b : β} :
    (check >>= next) = .ok b ↔ check = .ok () ∧ next () = .ok b :=
  bind_eq_ok.trans ⟨fun ⟨_, passed, later⟩ => ⟨passed, later⟩, fun ⟨passed, later⟩ => ⟨(), passed, later⟩⟩

theorem ok_of_bind {first : Except ε α} {next : α → Except ε β} {b : β}
    (both : (first >>= next) = .ok b) : ∃ a, first = .ok a ∧ next a = .ok b :=
  bind_eq_ok.1 both

theorem fails_iff {x : Except ε α} : (∃ e, x = .error e) ↔ ¬∃ a, x = .ok a := by
  cases x with
  | error e => exact ⟨fun _ => nofun, fun _ => ⟨e, rfl⟩⟩
  | ok a => exact ⟨nofun, fun none => absurd ⟨a, rfl⟩ none⟩

theorem forM_eq_ok {f : α → Except ε Unit} {as : List α} : as.forM f = .ok () ↔ ∀ a ∈ as, f a = .ok () := by
  induction as with
  | nil => exact ⟨nofun, fun _ => rfl⟩
  | cons a as ih =>
    rw [List.forM, check_eq_ok, List.forall_mem_cons, ← ih]

theorem forall₂_of_mapM {f : α → Except ε β} {as : List α} {bs : List β} (success : as.mapM f = .ok bs) :
    List.Forall₂ (fun a b => f a = .ok b) as bs := by
  induction as generalizing bs with
  | nil =>
    cases success
    exact .nil
  | cons a as ih =>
    rw [List.mapM_cons] at success
    obtain ⟨b, first, success⟩ := ok_of_bind success
    obtain ⟨bs', rest, success⟩ := ok_of_bind success
    cases success
    exact .cons first (ih rest)

theorem exists_of_forall₂ {R : α → β → Prop} {as : List α} {bs : List β} (related : List.Forall₂ R as bs) :
    ∀ b ∈ bs, ∃ a ∈ as, R a b := by
  induction related with
  | nil => nofun
  | cons first rest ih =>
    intro b member
    rcases List.mem_cons.1 member with rfl | member
    · exact ⟨_, List.mem_cons_self .., first⟩
    · obtain ⟨a, member', holds⟩ := ih b member
      exact ⟨a, List.mem_cons_of_mem _ member', holds⟩

theorem pairwise_of_forall₂ {R : α → β → Prop} {S : α → α → Prop} {T : β → β → Prop} {as : List α} {bs : List β}
    (related : List.Forall₂ R as bs) (ordered : as.Pairwise S)
    (keeps : ∀ a ∈ as, ∀ a' ∈ as, S a a' → ∀ b b', R a b → R a' b' → T b b') : bs.Pairwise T := by
  induction related with
  | nil => exact .nil
  | @cons a b as bs first rest ih =>
    obtain ⟨before, ordered⟩ := List.pairwise_cons.1 ordered
    refine List.pairwise_cons.2 ⟨fun b' member => ?_, ih ordered fun a member a' member' =>
      keeps a (List.mem_cons_of_mem _ member) a' (List.mem_cons_of_mem _ member')⟩
    obtain ⟨a', member, related⟩ := exists_of_forall₂ rest b' member
    exact keeps a (List.mem_cons_self ..) a' (List.mem_cons_of_mem _ member) (before a' member) b b' first related

theorem forall₂_comp {γ : Type} {R : α → β → Prop} {S : β → γ → Prop} {T : α → γ → Prop} {as : List α}
    {bs : List β} {cs : List γ} (through : ∀ a b c, R a b → S b c → T a c) (first : List.Forall₂ R as bs)
    (second : List.Forall₂ S bs cs) : List.Forall₂ T as cs := by
  induction first generalizing cs with
  | nil =>
    cases second
    exact .nil
  | cons related _ ih =>
    cases second with
    | cons related' second => exact .cons (through _ _ _ related related') (ih second)

theorem mem_of_mapM {f : α → Except ε β} {as : List α} {bs : List β} (success : as.mapM f = .ok bs) :
    ∀ b ∈ bs, ∃ a ∈ as, f a = .ok b :=
  exists_of_forall₂ (forall₂_of_mapM success)

theorem map_eq_ok {x : Except ε α} {f : α → β} {b : β} : x.map f = .ok b ↔ ∃ a, x = .ok a ∧ f a = b := by
  cases x with
  | error e => exact ⟨nofun, nofun⟩
  | ok a => exact ⟨fun same => ⟨a, rfl, Except.ok.inj same⟩, fun ⟨_, rfl, same⟩ => congrArg Except.ok same⟩

theorem holds_of_foldlM {σ : Type} {step : σ → α → Except ε σ} {holds : σ → Prop} {as : List α} {s s' : σ}
    (keeps : ∀ a ∈ as, ∀ t t', step t a = .ok t' → holds t → holds t') (success : as.foldlM step s = .ok s')
    (start : holds s) : holds s' := by
  induction as generalizing s with
  | nil =>
    cases success
    exact start
  | cons a as ih =>
    obtain ⟨first, keeps⟩ := List.forall_mem_cons.1 keeps
    rw [List.foldlM_cons] at success
    obtain ⟨t, step, success⟩ := ok_of_bind success
    exact ih keeps success (first s t step start)

theorem foldlM_congr {σ : Type} {step step' : σ → α → Except ε σ} {as : List α} {s : σ}
    (each : ∀ a ∈ as, ∀ t, step t a = step' t a) : as.foldlM step s = as.foldlM step' s := by
  induction as generalizing s with
  | nil => rfl
  | cons a as ih =>
    obtain ⟨first, each⟩ := List.forall_mem_cons.1 each
    rw [List.foldlM_cons, List.foldlM_cons, first]
    exact bind_congr fun _ => ih each

theorem ok_of_mem_mapM {f : α → Except ε β} {as : List α} {bs : List β} (success : as.mapM f = .ok bs) :
    ∀ a ∈ as, ∃ b ∈ bs, f a = .ok b :=
  exists_of_forall₂ (forall₂_of_mapM success).flip

theorem mapM_of_forall₂ {f : α → Except ε β} {as : List α} {bs : List β}
    (each : List.Forall₂ (fun a b => f a = .ok b) as bs) : as.mapM f = .ok bs := by
  induction each with
  | nil => rfl
  | cons first _ ih =>
    rw [List.mapM_cons, first, ih]
    rfl

theorem mapM_eq_ok {f : α → Except ε β} {g : α → β} {p : α → Prop} (each : ∀ a b, f a = .ok b ↔ p a ∧ b = g a)
    {as : List α} {bs : List β} : as.mapM f = .ok bs ↔ (∀ a ∈ as, p a) ∧ bs = as.map g := by
  induction as generalizing bs with
  | nil => simp [pure, Except.pure, eq_comm]
  | cons a as ih =>
    simp only [List.mapM_cons, bind_eq_ok, each, ih, pure, Except.pure, Except.ok.injEq, List.forall_mem_cons,
      List.map_cons]
    grind

theorem mapM_map {γ : Type} {f : α → Except ε β} {f' : α → Except ε γ} {g : β → γ} (each : ∀ a, f' a = (f a).map g)
    (as : List α) : as.mapM f' = (as.mapM f).map (List.map g) := by
  induction as with
  | nil => rfl
  | cons a as ih =>
    rw [List.mapM_cons, List.mapM_cons, each, ih]
    cases f a with
    | error e => rfl
    | ok b => cases as.mapM f <;> rfl

theorem perm_of_mapM {f : α → Except ε β} {as as' : List α} (perm : as.Perm as') {bs : List β}
    (success : as.mapM f = .ok bs) : ∃ bs', as'.mapM f = .ok bs' ∧ bs'.Perm bs := by
  obtain ⟨bs', each, same⟩ := List.perm_comp_forall₂ perm.symm (forall₂_of_mapM success)
  exact ⟨bs', mapM_of_forall₂ each, same⟩

theorem foldlM_of_perm {σ : Type} {step : σ → α → Except ε σ}
    (swap : ∀ s t u a b, step s a = .ok t → step t b = .ok u → ∃ t', step s b = .ok t' ∧ step t' a = .ok u)
    {as as' : List α} (perm : as.Perm as') {s s' : σ} (success : as.foldlM step s = .ok s') :
    as'.foldlM step s = .ok s' := by
  induction perm generalizing s with
  | nil => exact success
  | cons a _ ih =>
    rw [List.foldlM_cons] at success ⊢
    obtain ⟨t, first, success⟩ := ok_of_bind success
    rw [first]
    exact ih success
  | swap a a' as =>
    rw [List.foldlM_cons] at success ⊢
    obtain ⟨t, first, success⟩ := ok_of_bind success
    rw [List.foldlM_cons] at success
    obtain ⟨u, second, success⟩ := ok_of_bind success
    obtain ⟨t', first', second'⟩ := swap _ _ _ _ _ first second
    rw [first']
    change List.foldlM step t' (a' :: as) = _
    rw [List.foldlM_cons, second']
    exact success
  | trans _ _ ih ih' => exact ih' (ih success)

/-- The computation succeeds, with a value that has the property. -/
def Gives (x : Except ε α) (P : α → Prop) : Prop :=
  ∃ a, x = .ok a ∧ P a

namespace Gives

variable {x : Except ε α} {f : α → Except ε β} {P : α → Prop} {Q : β → Prop}

theorem ok {a : α} (holds : P a) : Gives (.ok a : Except ε α) P :=
  ⟨a, rfl, holds⟩

theorem bind (first : Gives x P) (next : ∀ a, P a → Gives (f a) Q) : Gives (x >>= f) Q := by
  obtain ⟨a, rfl, holds⟩ := first
  exact next a holds

theorem mapM {R : α → β → Prop} {as : List α} (each : ∀ a ∈ as, Gives (f a) (R a)) :
    Gives (as.mapM f) (List.Forall₂ R as) := by
  induction as with
  | nil => exact ok .nil
  | cons a as ih =>
    obtain ⟨first, each⟩ := List.forall_mem_cons.1 each
    rw [List.mapM_cons]
    exact first.bind fun b holds => (ih each).bind fun bs others => ok (.cons holds others)

end Gives

end Protogen
