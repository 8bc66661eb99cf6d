import Protogen.Codec.JsonMessage
import Protogen.Proofs.Except

set_option autoImplicit false

namespace Protogen

open Number (Range)

namespace JsonCodec

variable {α : Type} {c : JsonCodec α}

def Yields (c : JsonCodec α) (holds : α → Prop) : Prop :=
  ∀ v a, c.read v = .ok a → holds a

theorem Yields.any (c : JsonCodec α) : c.Yields fun _ => True :=
  fun _ _ _ => trivial

theorem toIntegerIn_eq_ok {r : Range} {v : Json} {i : Int} (read : v.toIntegerIn r = .ok i) :
    r.contains i = true := by
  obtain ⟨j, -, read⟩ := ok_of_bind read
  split at read
  next inside =>
    cases read
    exact inside
  next => cases read

end JsonCodec

namespace JsonField

variable {μ α : Type} {f : JsonField μ} {holds : μ → Prop} {c : JsonCodec α}

def Keeps (f : JsonField μ) (holds : μ → Prop) : Prop :=
  ∀ v m m', f.read v m = .ok m' → holds m → holds m'

theorem keeps_set {set : α → μ → μ} {yields : α → Prop} (read : ∀ v m, f.read v m = do return set (← c.read v) m)
    (value : c.Yields yields) (step : ∀ a m, yields a → holds m → holds (set a m)) : f.Keeps holds := by
  intro v m m' success held
  rw [read] at success
  obtain ⟨a, found, same⟩ := ok_of_bind success
  cases same
  exact step a m (value v a found) held

variable {key : String} {set : α → μ → μ} {yields : α → Prop}

theorem keeps_required {get : μ → α} (value : c.Yields yields)
    (step : ∀ a m, yields a → holds m → holds (set a m)) : (required key c get set).Keeps holds :=
  keeps_set (fun _ _ => rfl) value step

theorem keeps_optional {get : μ → Option α} (value : c.Yields yields)
    (step : ∀ a m, yields a → holds m → holds (set a m)) : (optional key c get set).Keeps holds :=
  keeps_set (fun _ _ => rfl) value step

end JsonField

namespace JsonMessage

variable {μ : Type} {c : JsonMessage μ} {holds : μ → Prop}

theorem holds_of_read (base : holds c.base) (keeps : ∀ f ∈ c.fields, f.Keeps holds) :
    c.codec.Yields holds := by
  intro v m read
  obtain ⟨members, -, read⟩ := ok_of_bind read
  refine holds_of_foldlM (fun f member m m' step held => ?_) read base
  split at step
  next v _ => exact keeps f member v m m' step held
  next =>
    cases step
    exact held

end JsonMessage

end Protogen
