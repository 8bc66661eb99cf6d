import Protogen.Proofs.Codec.JsonReading
import Protogen.Proofs.Shop.Form

set_option autoImplicit false

namespace Protogen

namespace LongForm

variable {W : Type} {w : Word W}

theorem yields_number (w : Word W) : (number w).json.Yields (number w).Canonical :=
  fun _ n _ => ⟨n, rfl⟩

theorem yields_text (lawful : w.Lawful) : (text w).json.Yields (text w).Canonical := by
  intro v s read
  obtain ⟨i, inside, rfl⟩ := map_eq_ok.1 read
  exact canonical_text lawful (JsonCodec.toIntegerIn_eq_ok inside)

theorem yields_big (lawful : w.Lawful) : (big w).json.Yields (big w).Canonical :=
  fun _ _ read => canonical_big lawful (JsonCodec.toIntegerIn_eq_ok read)

end LongForm

namespace Shop

structure Form.Yielding (F : Form) : Prop where
  signed : F.signed.json.Yields F.signed.Canonical
  unsigned : F.unsigned.json.Yields F.unsigned.Canonical

theorem OptionSet.yielding (S : OptionSet) : S.form.Yielding := by
  cases S with
  | defaults | minimal => exact ⟨LongForm.yields_number _, LongForm.yields_number _⟩
  | strings => exact ⟨LongForm.yields_text Word.lawful_signed, LongForm.yields_text Word.lawful_unsigned⟩
  | bigints => exact ⟨LongForm.yields_big Word.lawful_signed, LongForm.yields_big Word.lawful_unsigned⟩

namespace Widget

variable {F : Form}

structure FromJson (w : Widget F) : Prop where
  weight : F.signed.Canonical w.weight
  created : ∀ a, w.created = some a → ∃ v, F.date.json.read v = .ok a
  label : F.label.Exclusive w.label
  serial : F.unsigned.Canonical w.serial
  quota : ∀ a, w.quota = some a → F.signed.Canonical a

theorem fromJson_base (lawful : F.Lawful) : (base F).FromJson where
  weight := lawful.signed.canonical_zero
  created := nofun
  label := .inl lawful.label.name?_none
  serial := lawful.unsigned.canonical_zero
  quota := nofun

theorem fromJson_of_read (lawful : F.Lawful) (yielding : F.Yielding) : (json F).codec.Yields FromJson := by
  refine JsonMessage.holds_of_read (fromJson_base lawful) ?_
  simp only [json, List.forall_mem_cons]
  refine ⟨?id, ?weight, ?sizes, ?stock, ?created, ?note, ?name, ?count, ?color, ?parts, ?featured, ?blob,
    ?serial, ?ratio, ?quota, ?displayName, by simp⟩
  case weight =>
    exact JsonField.keeps_required yielding.signed fun a w canonical held => { held with weight := canonical }
  case created =>
    have source : F.date.json.Yields fun a => ∃ v, F.date.json.read v = .ok a := fun v a read => ⟨v, read⟩
    refine JsonField.keeps_optional source fun a w given held => { held with created := ?_ }
    rintro _ ⟨⟩
    exact given
  case name =>
    exact JsonField.keeps_optional (.any _) fun s w _ held =>
      { held with label := .inr (lawful.label.count?_setName s w.label) }
  case count =>
    exact JsonField.keeps_optional (.any _) fun n w _ held =>
      { held with label := .inl (lawful.label.name?_setCount n w.label) }
  case serial =>
    exact JsonField.keeps_required yielding.unsigned fun a w canonical held => { held with serial := canonical }
  case quota =>
    refine JsonField.keeps_optional yielding.signed fun a w canonical held => { held with quota := ?_ }
    rintro _ ⟨⟩
    exact canonical
  -- The facts are about none of the other members.
  case note | featured => exact JsonField.keeps_optional (.any _) fun _ _ _ held => { held with }
  all_goals exact JsonField.keeps_required (.any _) fun _ _ _ held => { held with }

end Widget

end Shop

end Protogen
