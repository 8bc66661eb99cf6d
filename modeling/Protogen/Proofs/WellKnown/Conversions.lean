import Protogen.Proofs.Time.Years
import Protogen.Proofs.WellKnown.JsonForms

set_option autoImplicit false

namespace Protogen.WellKnown.Timestamp

open Number (Range)
open Time (Moment)

variable {L : LongForm Int64} {t t' : Timestamp (.number .signed)}

/-- The one timestamp is the other's instant in whole seconds, rounded down, and what is over. -/
structure Normalizes (t t' : Timestamp (.number .signed)) : Prop where
  seconds : t'.seconds.toInt = t.instant / 1000000000
  nanos : t'.nanos.toInt = t.instant % 1000000000

theorem Normalizes.instant (same : t.Normalizes t') : t'.instant = t.instant := by
  obtain ⟨seconds, nanos⟩ := same
  rw [Timestamp.instant, seconds, nanos]
  omega

theorem Normalizes.eq (same : t.Normalizes t') (normal : t.Normal) : t' = t := by
  obtain ⟨seconds, nanos⟩ := same
  obtain ⟨low, high⟩ := normal
  rw [Timestamp.instant] at seconds nanos
  have seconds' : t'.seconds = t.seconds := by
    rw [← Int64.toInt_inj]
    omega
  have nanos' : t'.nanos = t.nanos := by
    rw [← Int32.toInt_inj]
    omega
  cases t'
  cases t
  exact congrArg₂ Timestamp.mk seconds' nanos'

/-- Nothing on the way from a timestamp to its moment is beyond the type that it is computed in, and the parts
of the moment fit into those of a timestamp. -/
structure Fits (L : LongForm Int64) (t : Timestamp (.number .signed)) : Prop where
  product : Range.int128.contains (t.seconds.toInt * 1000000000) = true
  sum : Range.int128.contains (t.seconds.toInt * 1000000000 + t.nanos.toInt) = true
  seconds : ∀ m, (t.held L).toMoment = .ok m → Range.int64.contains m.seconds = true
  nanos : ∀ m, (t.held L).toMoment = .ok m → Range.int32.contains m.subsecond = true

/-- The timestamp is converted, and comes back with its instant in whole seconds, where its instant is in the
years. It is refused elsewhere. -/
def Converts {α : Type} (L : LongForm Int64) (there : Timestamp L → Except CodecError α)
    (back : α → Except CodecError (Timestamp L)) (first last : Int) (t : Timestamp (.number .signed)) : Prop :=
  if (Moment.mk t.instant 0).InYears first last then
    ∃ a t', there (t.held L) = .ok a ∧ back a = .ok (t'.held L) ∧ t.Normalizes t'
  else there (t.held L) = .error .invalidTimestamp

theorem toMoment_held_eq (form : L.Lawful) (t : Timestamp (.number .signed)) : (t.held L).toMoment =
    if Moment.isRepresentable t.instant = true then .ok ⟨t.instant, 0⟩ else .error .invalidTimestamp := by
  split
  next inside => exact toMoment_held form inside
  next outside =>
    have missing : Moment.ofNanos? (t.seconds.toInt * Time.nanosPerSecond + t.nanos.toInt) = none := if_neg outside
    simp only [toMoment, held, form.toWord_ofWord, bind, Except.bind, missing]
    rfl

theorem eq_of_toMoment_held (form : L.Lawful) {m : Moment} (moment : (t.held L).toMoment = .ok m) :
    Moment.isRepresentable t.instant = true ∧ m = ⟨t.instant, 0⟩ := by
  rw [toMoment_held_eq form] at moment
  split at moment <;> cases moment
  next inside => exact ⟨inside, rfl⟩

theorem exists_ofMoment (inside : Moment.isRepresentable t.instant = true) :
    ∃ t', (ofMoment ⟨t.instant, 0⟩ : Timestamp L) = t'.held L ∧ t.Normalizes t' := by
  obtain ⟨low, high⟩ := Range.contains_iff.1 (word_of_isRepresentable inside)
  refine ⟨⟨Int64.ofInt (t.instant / 1000000000), Int32.ofNat (t.instant % 1000000000).toNat⟩, rfl, ?_, ?_⟩
  next => exact Int64.toInt_ofInt_of_le low high
  next =>
    rw [Int32.toInt_ofNat_of_lt (by omega)]
    omega

theorem fits (form : L.Lawful) (t : Timestamp (.number .signed)) : Fits L t := by
  have low := t.seconds.le_toInt
  have high := t.seconds.toInt_lt
  have low' := t.nanos.le_toInt
  have high' := t.nanos.toInt_lt
  constructor
  case product =>
    refine Range.contains_iff.2 ⟨?_, ?_⟩ <;> simp only [Range.int128] <;> omega
  case sum =>
    refine Range.contains_iff.2 ⟨?_, ?_⟩ <;> simp only [Range.int128] <;> omega
  case seconds =>
    intro m moment
    obtain ⟨inside, rfl⟩ := eq_of_toMoment_held form moment
    exact word_of_isRepresentable inside
  case nanos =>
    intro m moment
    simp only [Range.contains_iff, Range.int32, Moment.subsecond, Time.nanosPerSecond]
    omega

theorem converts_moment (form : L.Lawful) (t : Timestamp (.number .signed)) :
    Converts L toMoment (fun m => .ok (ofMoment m)) (-9999) 9999 t := by
  rw [Converts, toMoment_held_eq form]
  split
  next years =>
    have inside := Moment.isRepresentable_iff_inYears.2 years
    obtain ⟨t', back, same⟩ := exists_ofMoment inside
    exact ⟨_, t', if_pos inside, congrArg Except.ok back, same⟩
  next outside => exact if_neg (mt Moment.isRepresentable_iff_inYears.1 outside)

theorem converts_text (form : L.Lawful) (t : Timestamp (.number .signed)) :
    Converts L toText ofText 0 9999 t := by
  rw [Converts]
  split
  next years =>
    obtain ⟨s, text⟩ := Moment.exists_text?_iff.2 years
    obtain ⟨parsed, inside⟩ := Moment.parse?_text text
    obtain ⟨t', back, same⟩ := exists_ofMoment inside
    refine ⟨s, t', toText_eq_ok.2 ⟨_, toMoment_held form inside, text⟩, ?_, same⟩
    rw [ofText, parsed, ← back]
  next outside =>
    cases text : (t.held L).toText with
    | ok s =>
      obtain ⟨m, moment, written⟩ := toText_eq_ok.1 text
      obtain ⟨-, rfl⟩ := eq_of_toMoment_held form moment
      have years := (Moment.exists_text?_iff (m := ⟨t.instant, 0⟩)).1 ⟨s, written⟩
      exact absurd years outside
    | error e =>
      -- The moment is refused, or its text is, with the same error.
      rw [toText, toMoment_held_eq form] at text
      split at text
      next =>
        simp only [bind, Except.bind] at text
        split at text <;> cases text
        rfl
      next =>
        cases text
        rfl

theorem read_json_held (form : L.Lawful) (readable : L.Readable) (t : Timestamp (.number .signed)) :
    ∃ t', (DateForm.timestamp L).json.read ((DateForm.timestamp L).json.write (t.held L)) = .ok (t'.held L) ∧
      t'.instant = t.instant ∧ (t.Normal ∨ ¬(Moment.mk t.instant 0).InYears 0 9999 → t' = t) := by
  have text := converts_text form t
  rw [Converts] at text
  split at text
  next years =>
    obtain ⟨s, t', written, read, same⟩ := text
    refine ⟨t', ?_, same.instant, ?_⟩
    next =>
      simp only [written]
      exact read
    next =>
      rintro (normal | outside)
      · exact same.eq normal
      · exact absurd years outside
  next =>
    refine ⟨t, ?_, rfl, fun _ => rfl⟩
    simp only [text]
    exact read_write (readable t.seconds)

theorem lawful_readable (form : L ∈ [LongForm.number Word.signed, .text .signed, .big .signed]) :
    L.Lawful ∧ L.Readable := by
  have signed := Word.lawful_signed
  simp only [List.mem_cons, List.not_mem_nil, or_false] at form
  rcases form with rfl | rfl | rfl
  · exact ⟨LongForm.lawful_number signed, LongForm.readable_number signed⟩
  · exact ⟨LongForm.lawful_text signed (by decide), LongForm.readable_text signed Word.wide_signed⟩
  · exact ⟨LongForm.lawful_big signed (by decide), LongForm.readable_big signed Word.wide_signed⟩

theorem keeps_instant (form : L ∈ [LongForm.number Word.signed, .text .signed, .big .signed])
    (t : Timestamp (.number .signed)) :
    Fits L t ∧ Converts L toMoment (fun m => .ok (ofMoment m)) (-9999) 9999 t ∧
      Converts L toText ofText 0 9999 t ∧
        ∃ t', (DateForm.timestamp L).json.read ((DateForm.timestamp L).json.write (t.held L)) =
            .ok (t'.held L) ∧ t'.instant = t.instant ∧
              (t.Normal ∨ ¬(Moment.mk t.instant 0).InYears 0 9999 → t' = t) := by
  obtain ⟨lawful, readable⟩ := lawful_readable form
  exact ⟨fits lawful t, converts_moment lawful t, converts_text lawful t, read_json_held lawful readable t⟩

-- Among them half a second into the year 0, counted from a second before it.
theorem keeps_instant_first_second :
    LongForm.text Word.signed ∈ [LongForm.number Word.signed, .text .signed, .big .signed] ∧
      ∃ s t', toText (⟨"-62167219201", 1500000000⟩ : Timestamp (.text .signed)) = .ok s ∧
        ofText s = .ok (held (.text .signed) t') ∧ t'.seconds.toInt = -62167219200 ∧
          t'.nanos.toInt = 500000000 := by
  have form : LongForm.text Word.signed ∈ [LongForm.number Word.signed, .text .signed, .big .signed] := by simp
  have text := (keeps_instant form ⟨-62167219201, 1500000000⟩).2.2.1
  have years : (Moment.mk (instant ⟨-62167219201, 1500000000⟩) 0).InYears 0 9999 := by decide
  rw [Converts, if_pos years] at text
  obtain ⟨s, t', there, back, seconds, nanos⟩ := text
  exact ⟨form, s, t', there, back, seconds, nanos⟩

end Protogen.WellKnown.Timestamp
