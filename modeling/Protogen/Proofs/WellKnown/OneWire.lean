import Protogen.Proofs.Codec.Message
import Protogen.Proofs.WellKnown.Timestamp
import Protogen.Proofs.WellKnown.Long

set_option autoImplicit false

namespace Protogen

open Number (intText)

namespace LongForm

variable {W : Type} {w : Word W}

-- A word is left out in this form if it is zero, and not otherwise.
def ElidesZero (L : LongForm W) (w : Word W) : Prop :=
  ∀ n, L.isZero (L.ofWord n) = (w.toInt n == 0)

theorem elidesZero_number : (number w).ElidesZero w :=
  fun _ => rfl

theorem elidesZero_big : (big w).ElidesZero w :=
  fun _ => rfl

theorem elidesZero_text : (text w).ElidesZero w := by
  intro n
  by_cases zero : w.toInt n = 0
  · simp only [zero]
    decide
  · -- The text of any other integer is read back as that integer, not as zero.
    have other (s : String) (i : Option Int) (reads : Number.readInt? s.toList = i) (apart : i ≠ some (w.toInt n)) :
        String.ofList (intText (w.toInt n)) ≠ s := by
      rintro rfl
      rw [String.toList_ofList, Number.readInt?_intText] at reads
      exact apart reads.symm
    have empty := other "" none (by decide) nofun
    have digit := other "0" (some 0) (by decide) (fun same => zero (Option.some.inj same).symm)
    rw [beq_false_of_ne zero]
    change (String.ofList (intText (w.toInt n)) == "" || String.ofList (intText (w.toInt n)) == "0") = false
    rw [beq_false_of_ne empty, beq_false_of_ne digit]
    rfl

theorem write_ofWord {L : LongForm W} (form : L.Lawful) (n : W) :
    (L.codec w).write (L.ofWord n) = w.codec.write n := by
  simp only [codec, ValueCodec.via, form.toWord_ofWord]
  rfl

end LongForm

namespace WellKnown

open Time (Moment)

variable {L : LongForm Int64}

theorem Timestamp.records_held (form : L.Lawful) (zero : L.ElidesZero .signed)
    (t : Timestamp (.number .signed)) :
    (codec L).records (t.held L) = (codec (.number .signed)).records t := by
  apply MessageCodec.records_congr
  simp only [codec, List.map_cons, List.map_nil]
  congr 1
  exact FieldCodec.records_required (zero t.seconds) rfl (LongForm.write_ofWord form t.seconds)

namespace DateForm

-- The value stands for the timestamp, and is what the timestamp is held as.
def Holds (D : DateForm L) (a : D.Carrier) (t : Timestamp (.number .signed)) : Prop :=
  D.toTimestamp a = .ok (t.held L) ∧ D.ofTimestamp (t.held L) = .ok a

theorem holds_timestamp (t : Timestamp (.number .signed)) : (timestamp (.number .signed)).Holds t t :=
  ⟨rfl, rfl⟩

theorem holds_moment (form : L.Lawful) {t : Timestamp (.number .signed)} (normal : t.Normal)
    (years : t.InYears (-9999) 9999) : (moment L).Holds ⟨t.instant, 0⟩ t :=
  ⟨congrArg Except.ok (Timestamp.ofMoment_instant normal),
    Timestamp.toMoment_held form (Timestamp.isRepresentable_instant normal years)⟩

theorem holds_text (form : L.Lawful) {t : Timestamp (.number .signed)} (normal : t.Normal)
    (years : t.InYears 0 9999) : ∃ s, (text L).Holds s t := by
  obtain ⟨s, written⟩ := Timestamp.exists_text_instant normal years
  obtain ⟨read, inside⟩ := Moment.parse?_text written
  refine ⟨s, ?_, Timestamp.toText_eq_ok.2 ⟨_, Timestamp.toMoment_held form inside, written⟩⟩
  simp only [Timestamp.ofText, read, Timestamp.ofMoment_instant normal]

theorem write_holds (form : L.Lawful) (zero : L.ElidesZero .signed) {D : DateForm L} {a : D.Carrier}
    {t : Timestamp (.number .signed)} (holds : D.Holds a t) :
    D.codec.write a = (timestamp (.number .signed)).codec.write t := by
  simp only [codec, ValueCodec.via, holds.1]
  exact MessageCodec.write_congr (Timestamp.records_held form zero t)

end DateForm

namespace Wrapper

theorem write_congr {α β : Type} {base : α} {base' : β} {isDefault : α → Bool} {isDefault' : β → Bool}
    {c : ValueCodec α} {d : ValueCodec β} {a : α} {b : β} (elided : isDefault a = isDefault' b)
    (wireType : c.wireType = d.wireType) (write : c.write a = d.write b) :
    (valueCodec (codec base isDefault c)).write a = (valueCodec (codec base' isDefault' d)).write b := by
  refine MessageCodec.write_congr (w := Wrapper.mk a) (v := Wrapper.mk b) (MessageCodec.records_congr ?_)
  simp only [codec, List.map_cons, List.map_nil]
  congr 1
  exact FieldCodec.records_required elided wireType write

end Wrapper

end WellKnown

end Protogen
