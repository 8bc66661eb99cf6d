import Protogen.Proofs.Codec.Refusal
import Protogen.Proofs.Time.Years
import Protogen.Proofs.WellKnown.Timestamp

set_option autoImplicit false

namespace Protogen.WellKnown

open Number (Range)
open Time (Moment)

variable {L : LongForm Int64} {depth : Nat}

theorem Timestamp.toMoment_ofMoment_error (form : L.Lawful) {m : Moment}
    (word : Range.int64.contains m.seconds = true) (outside : ¬m.InYears (-9999) 9999) :
    toMoment (ofMoment m : Timestamp L) = .error .invalidTimestamp := by
  rw [toMoment_ofMoment_eq form word, Moment.ofNanos?, if_neg (mt Moment.isRepresentable_iff_inYears.1 outside)]

namespace DateForm

-- The value is read back as one that stands for the same timestamp.
def Passes (D : DateForm L) (a : D.Carrier) : Prop :=
  ∃ b, D.Canonical b ∧ D.toTimestamp b = D.toTimestamp a

theorem passes_of_canonical {D : DateForm L} {a : D.Carrier} (canonical : D.Canonical a) : D.Passes a :=
  ⟨a, canonical, rfl⟩

theorem refuses_codec (form : L.Lawful) (shallow : depth < Wire.recursionLimit) {D : DateForm L} {a : D.Carrier}
    {t : Timestamp L} {e : CodecError} (seconds : L.Canonical t.seconds) (out : D.toTimestamp a = .ok t)
    (back : D.ofTimestamp t = .error e) : D.codec.Refuses depth a e :=
  (MessageCodec.carries_message (Timestamp.numbered L) shallow (Timestamp.delivers form seconds)).refuses out back

theorem passes_moment (form : L.Lawful) {m : Moment} (years : m.InYears (-9999) 9999) : (moment L).Passes m :=
  ⟨⟨m.nanos, 0⟩, canonical_moment form (Moment.isRepresentable_iff_inYears.2 years), rfl⟩

theorem refuses_moment (form : L.Lawful) (shallow : depth < Wire.recursionLimit) {m : Moment}
    (word : Range.int64.contains m.seconds = true) (outside : ¬m.InYears (-9999) 9999) :
    (moment L).codec.Refuses depth m .invalidTimestamp :=
  refuses_codec (t := .ofMoment m) form shallow ⟨_, rfl⟩ rfl (Timestamp.toMoment_ofMoment_error form word outside)

theorem word_of_read {v : Json} {m : Moment} (read : (moment L).json.read v = .ok m) :
    Range.int64.contains m.seconds = true := by
  dsimp only at read
  split at read
  next s =>
    split at read
    next m' parsed =>
      cases read
      exact Moment.seconds_of_parse? parsed
    next => cases read
  next =>
    obtain ⟨t, -, held⟩ := ok_of_bind read
    obtain ⟨nanos, rfl, inside⟩ := Timestamp.utc_of_toMoment held
    exact Timestamp.word_of_isRepresentable inside

variable {s : String} {m : Moment}

theorem toTimestamp_text (parsed : Moment.parse? s = some m) : (text L).toTimestamp s = .ok (.ofMoment m) := by
  simp only [Timestamp.ofText, parsed]

theorem exists_of_toTimestamp_text {t : Timestamp L} (out : (text L).toTimestamp s = .ok t) :
    ∃ m, Moment.parse? s = some m := by
  simp only [Timestamp.ofText] at out
  split at out
  next m parsed => exact ⟨m, parsed⟩
  next => cases out

theorem passes_text (form : L.Lawful) (parsed : Moment.parse? s = some m) (years : m.InYears 0 9999) :
    (text L).Passes s := by
  obtain ⟨s', written⟩ := Moment.exists_text?_iff.2 years
  refine ⟨s', canonical_text form written, ?_⟩
  rw [toTimestamp_text (Moment.parse?_text written).1, toTimestamp_text parsed]
  rfl

theorem refuses_text (form : L.Lawful) (shallow : depth < Wire.recursionLimit)
    (parsed : Moment.parse? s = some m) (outside : ¬m.InYears 0 9999) :
    (text L).codec.Refuses depth s .invalidTimestamp := by
  refine refuses_codec form shallow ⟨_, rfl⟩ (toTimestamp_text parsed) ?_
  by_cases inside : m.InYears (-9999) 9999
  next =>
    have moment : Timestamp.toMoment (.ofMoment m : Timestamp L) = .ok ⟨m.nanos, 0⟩ :=
      Timestamp.toMoment_ofMoment form (Moment.isRepresentable_iff_inYears.2 inside)
    have unwritten : (Moment.mk m.nanos 0).text? = none := by
      cases written : (Moment.mk m.nanos 0).text? with
      | none => rfl
      | some s' => exact absurd (Moment.exists_text?_iff.1 ⟨s', written⟩) outside
    simp only [Timestamp.toText, moment, bind, Except.bind, unwritten]
    rfl
  next =>
    simp only [Timestamp.toText, Timestamp.toMoment_ofMoment_error form (Moment.seconds_of_parse? parsed) inside]
    rfl

end DateForm

end Protogen.WellKnown
