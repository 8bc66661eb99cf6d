import Protogen.Proofs.WellKnown.Timestamp
import Protogen.Shop.Widget

set_option autoImplicit false

namespace Protogen.Shop

namespace ColorForm

structure Lawful (C : ColorForm) : Prop where
  ofNumber_toNumber : ∀ c, C.ofNumber (C.toNumber c) = c
  eq_base : ∀ c, C.isBase c = true → c = C.base

theorem lawful_number : number.Lawful where
  ofNumber_toNumber _ := rfl
  eq_base _ zero := eq_of_beq zero

theorem lawful_variant : variant.Lawful where
  ofNumber_toNumber := by
    -- The number of the variant for unknown numbers is itself one of these.
    rintro (_ | _ | _ | _) <;> decide
  eq_base _ zero := eq_of_beq zero

end ColorForm

namespace LabelForm

-- At most one member of the choice is there.
def Exclusive (B : LabelForm) (l : B.Carrier) : Prop :=
  B.name? l = Option.none ∨ B.count? l = Option.none

/-- A label is its name or its count, and nothing else. -/
structure Lawful (B : LabelForm) : Prop where
  name?_none : B.name? B.none = Option.none
  name?_setName : ∀ s l, B.name? (B.setName s l) = some s
  count?_setName : ∀ s l, B.count? (B.setName s l) = Option.none
  name?_setCount : ∀ n l, B.name? (B.setCount n l) = Option.none
  eq_none : ∀ l, B.name? l = Option.none → B.count? l = Option.none → l = B.none
  eq_setName : ∀ s l l', B.name? l = some s → B.count? l = Option.none → l = B.setName s l'
  eq_setCount : ∀ n l l', B.name? l = Option.none → B.count? l = some n → l = B.setCount n l'

theorem lawful_fields : fields.Lawful where
  name?_none := rfl
  name?_setName _ _ := rfl
  count?_setName _ _ := rfl
  name?_setCount _ _ := rfl
  eq_none := by
    rintro ⟨_, _⟩ ⟨⟩ ⟨⟩
    rfl
  eq_setName := by
    rintro s ⟨_, _⟩ _ ⟨⟩ ⟨⟩
    rfl
  eq_setCount := by
    rintro n ⟨_, _⟩ _ ⟨⟩ ⟨⟩
    rfl

theorem lawful_choice : choice.Lawful where
  name?_none := rfl
  name?_setName _ _ := rfl
  count?_setName _ _ := rfl
  name?_setCount _ _ := rfl
  eq_none := by
    rintro (_ | _ | _) name count
    · rfl
    · cases name
    · cases count
  eq_setName := by
    rintro s (_ | _ | _) _ name _ <;> cases name
    rfl
  eq_setCount := by
    rintro n (_ | _ | _) _ _ count <;> cases count
    rfl

-- The one label, or the other where the one is not there.
def onto (B : LabelForm) (l l' : B.Carrier) : B.Carrier :=
  if (B.name? l).isNone && (B.count? l).isNone then l' else l

theorem Lawful.onto_none {B : LabelForm} (lawful : B.Lawful) (l : B.Carrier) : B.onto l B.none = l := by
  rw [onto]
  split
  next absent =>
    obtain ⟨name, count⟩ := Bool.and_eq_true_iff.1 absent
    exact (lawful.eq_none l (Option.isNone_iff_eq_none.1 name) (Option.isNone_iff_eq_none.1 count)).symm
  next => rfl

theorem Lawful.steps_onto {B : LabelForm} (lawful : B.Lawful) {l : B.Carrier} (exclusive : B.Exclusive l)
    (l' : B.Carrier) : ∃ l₁,
      (B.name? l = Option.none → l₁ = l') ∧ (∀ s, B.name? l = some s → l₁ = B.setName s l') ∧
        (B.count? l = Option.none → B.onto l l' = l₁) ∧
          ∀ n, B.count? l = some n → B.onto l l' = B.setCount n l₁ := by
  cases name : B.name? l with
  | some s =>
    have count : B.count? l = Option.none := by
      rcases exclusive with absent | absent
      · rw [name] at absent
        cases absent
      · exact absent
    have kept : B.onto l l' = l := by simp [onto, name]
    refine ⟨l, nofun, ?_, fun _ => kept, ?_⟩
    · rintro _ ⟨⟩
      exact lawful.eq_setName s l l' name count
    · rw [count]
      nofun
  | none =>
    refine ⟨l', fun _ => rfl, nofun, fun count => ?_, fun n count => ?_⟩
    · simp [onto, name, count]
    · have kept : B.onto l l' = l := by simp [onto, name, count]
      rw [kept]
      exact lawful.eq_setCount n l l' name count

theorem Lawful.steps {B : LabelForm} (lawful : B.Lawful) {l : B.Carrier} (exclusive : B.Exclusive l) : ∃ l₁,
    (B.name? l = Option.none → l₁ = B.none) ∧ (∀ s, B.name? l = some s → l₁ = B.setName s B.none) ∧
      (B.count? l = Option.none → l = l₁) ∧ ∀ n, B.count? l = some n → l = B.setCount n l₁ := by
  have steps := lawful.steps_onto exclusive B.none
  rwa [lawful.onto_none l] at steps

end LabelForm

namespace Form

structure Lawful (F : Form) : Prop where
  signed : F.signed.Lawful
  unsigned : F.unsigned.Lawful
  date : F.date.Lawful
  color : F.color.Lawful
  label : F.label.Lawful

theorem lawful_plain : plain.Lawful where
  signed := LongForm.lawful_number Word.lawful_signed
  unsigned := LongForm.lawful_number Word.lawful_unsigned
  date := WellKnown.DateForm.lawful_timestamp
  color := ColorForm.lawful_number
  label := LabelForm.lawful_fields

theorem lawful_texts : texts.Lawful where
  signed := LongForm.lawful_text Word.lawful_signed (by decide)
  unsigned := LongForm.lawful_text Word.lawful_unsigned (by decide)
  date := WellKnown.DateForm.lawful_moment (LongForm.lawful_text Word.lawful_signed (by decide))
  color := ColorForm.lawful_number
  label := LabelForm.lawful_fields

theorem lawful_bigs : bigs.Lawful where
  signed := LongForm.lawful_big Word.lawful_signed (by decide)
  unsigned := LongForm.lawful_big Word.lawful_unsigned (by decide)
  date := WellKnown.DateForm.lawful_text (LongForm.lawful_big Word.lawful_signed (by decide))
  color := ColorForm.lawful_variant
  label := LabelForm.lawful_choice

end Form

-- The sets of options that the sample messages are generated with.

/-- The last set leaves JSON out, and is as the first otherwise. -/
inductive OptionSet where
  | defaults
  | strings
  | bigints
  | minimal
  deriving DecidableEq

namespace OptionSet

@[reducible] def form : OptionSet → Form
  | defaults => .plain
  | strings => .texts
  | bigints => .bigs
  | minimal => .plain

theorem lawful (S : OptionSet) : S.form.Lawful := by
  cases S with
  | defaults => exact Form.lawful_plain
  | strings => exact Form.lawful_texts
  | bigints => exact Form.lawful_bigs
  | minimal => exact Form.lawful_plain

end OptionSet

end Protogen.Shop
