import Protogen.Proofs.Codec.Resume

set_option autoImplicit false

namespace Protogen

open Wire (Read Reader)
open Wire.Read (Takes Confined)

namespace Wire.Read

variable {α β γ δ σ τ : Type} {R : α → β → Prop}

inductive Matching (R : α → β → Prop) :
    EStateM.Result CodecError Reader α → EStateM.Result CodecError Reader β → Prop
  | ok {a : α} {b : β} (related : R a b) (r : Reader) : Matching R (.ok a r) (.ok b r)
  | error (e : CodecError) (r : Reader) : Matching R (.error e r) (.error e r)

def Parallel (R : α → β → Prop) (action : Read α) (action' : Read β) : Prop :=
  ∀ r, Matching R (action r) (action' r)

namespace Parallel

theorem pure {a : α} {b : β} (related : R a b) : Parallel R (Pure.pure a) (Pure.pure b) :=
  fun r => .ok related r

theorem refl (action : Read α) : Parallel Eq action action := by
  intro r
  cases action r with
  | ok a r' => exact .ok rfl r'
  | error e r' => exact .error e r'

theorem bind {S : γ → δ → Prop} {action : Read γ} {action' : Read δ} {next : γ → Read α} {next' : δ → Read β}
    (first : Parallel S action action') (second : ∀ c d, S c d → Parallel R (next c) (next' d)) :
    Parallel R (action >>= next) (action' >>= next') := by
  intro r
  have both := first r
  change Matching R (EStateM.bind action next r) (EStateM.bind action' next' r)
  simp only [EStateM.bind]
  generalize action r = x, action' r = y at both
  cases both with
  | ok related r' => exact second _ _ related r'
  | error e r' => exact .error e r'

theorem bind_same {action : Read γ} {next : γ → Read α} {next' : γ → Read β}
    (second : ∀ c, Parallel R (next c) (next' c)) : Parallel R (action >>= next) (action >>= next') := by
  refine (refl action).bind ?_
  rintro c _ rfl
  exact second c

theorem whileBefore {R : σ → τ → Prop} {action : σ → Read σ} {action' : τ → Read τ}
    (step : ∀ s t, R s t → Parallel R (action s) (action' t)) (stop fuel : Nat) {s : σ} {t : τ} (related : R s t) :
    Parallel R (whileBefore stop action fuel s) (whileBefore stop action' fuel t) := by
  induction fuel generalizing s t with
  | zero => exact pure related
  | succ fuel ih =>
    refine bind_same fun index => ?_
    split
    next => exact (step s t related).bind fun _ _ => ih
    next => exact pure related

theorem repeatTo {R : σ → τ → Prop} {action : σ → Read σ} {action' : τ → Read τ}
    (step : ∀ s t, R s t → Parallel R (action s) (action' t)) (stop : Nat) {s : σ} {t : τ} (related : R s t) :
    Parallel R (repeatTo stop s action) (repeatTo stop t action') :=
  fun r => whileBefore step stop _ related r

theorem takes {least depth : Nat} {action : Read α} {action' : Read β} {bytes : List UInt8} {a : α}
    (parallel : Parallel R action action') (confined : Confined least action')
    (takes : Takes action depth bytes a) : ∃ b, R a b ∧ Takes action' depth bytes b := by
  -- The other action is confined, so its success in one buffer is a success wherever the bytes stand.
  have here := Reader.at_holding depth bytes
  have both := parallel (Reader.holding depth bytes)
  rw [takes _ here] at both
  generalize result : action' (Reader.holding depth bytes) = y at both
  cases both with
  | @ok _ b related =>
    obtain ⟨bytes', there, same, -, takes'⟩ := confined depth _ b _ here.level here.inside result
    obtain rfl := here.unique there (Reader.advance_inj same)
    exact ⟨b, related, takes'⟩

end Parallel

end Wire.Read

namespace FieldCodec

variable {μ α : Type} {number : Nat} {c : ValueCodec α} {R : μ → μ → Prop}

def Parallel (R : μ → μ → Prop) (f : FieldCodec μ) : Prop :=
  ∀ tag m n, R m n → Wire.Read.Parallel R (f.read tag m) (f.read tag n)

theorem parallel_of_set {f : FieldCodec μ} {read : Read α} {set : α → μ → μ}
    (sets : ∀ tag m, f.read tag m = do return set (← read) m) (kept : ∀ a m n, R m n → R (set a m) (set a n)) :
    f.Parallel R := by
  intro tag m n related
  rw [sets, sets]
  exact .bind_same fun a => .pure (kept a m n related)

theorem parallel_packed {get : μ → List α} {add : α → μ → μ} (kept : ∀ a m n, R m n → R (add a m) (add a n)) :
    (packed number c get add).Parallel R := by
  intro tag m n related
  have each (m n : μ) (related : R m n) :
      Wire.Read.Parallel R (do return add (← c.read) m) (do return add (← c.read) n) :=
    .bind_same fun a => .pure (kept a m n related)
  simp only [packed]
  split
  next => exact .bind_same fun _ => .bind_same fun _ => .repeatTo each _ related
  next => exact each m n related

end FieldCodec

namespace MessageCodec

variable {μ : Type} {c : MessageCodec μ} {R : μ → μ → Prop} {m n : μ}

def Parallel (R : μ → μ → Prop) (c : MessageCodec μ) : Prop :=
  ∀ f ∈ c.fields, f.Parallel R

theorem parallel_readRecord (fields : c.Parallel R) (related : R m n) :
    Wire.Read.Parallel R (c.readRecord m) (c.readRecord n) := by
  refine .bind_same fun tag => ?_
  split
  next f found => exact fields f (List.mem_of_find?_eq_some found) tag m n related
  next => exact .bind_same fun _ => .pure related

theorem resume_parallel {bytes : List UInt8} {m' : μ} (fields : c.Parallel R) (related : R m n)
    (success : c.resume m bytes = .ok m') : ∃ n', R m' n' ∧ c.resume n bytes = .ok n' := by
  have both := Wire.Read.Parallel.whileBefore (fun _ _ => parallel_readRecord fields) bytes.length bytes.length
    related (Reader.holding 0 bytes)
  rw [resume] at success ⊢
  generalize Read.whileBefore bytes.length c.readRecord bytes.length m (Reader.holding 0 bytes) = x,
    Read.whileBefore bytes.length c.readRecord bytes.length n (Reader.holding 0 bytes) = y at both success
  cases both with
  | error => cases success
  | ok related =>
    cases success
    exact ⟨_, related, rfl⟩

end MessageCodec

end Protogen
