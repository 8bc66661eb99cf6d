import Protogen.Proofs.Time.MomentText
import Protogen.Proofs.WellKnown.Long
import Protogen.WellKnown.Timestamp

set_option autoImplicit false

namespace Protogen.WellKnown

open Number (Range)
open Time (Moment)
open Wire.Read (Ensures Confined)

variable {L : LongForm Int64} {depth : Nat}

namespace Timestamp

theorem numbered (L : LongForm Int64) : (codec L).Numbered :=
  .of_numbers [1, 2] rfl (by decide) (by decide)

theorem local_codec (L : LongForm Int64) : (codec L).Local := by
  simp only [MessageCodec.Local, codec, List.forall_mem_cons]
  exact ⟨FieldCodec.local_required (LongForm.confined_codec Word.lawful_signed),
    FieldCodec.local_required Wire.Read.confined_int32, by simp⟩

theorem delivers (form : L.Lawful) {t : Timestamp L} (canonical : L.Canonical t.seconds) :
    MessageCodec.Delivers depth t (codec L).fields base t :=
  .cons
    (FieldCodec.delivers_value
      (fun zero => by rw [LongForm.eq_zero form canonical zero]; rfl)
      (LongForm.carries_codec Word.lawful_signed form depth canonical))
    (.cons
      (FieldCodec.delivers_value (fun zero => by rw [eq_of_beq zero]; rfl)
        (ValueCodec.carries_int32 depth t.nanos))
      (.nil t))

theorem keeps_canonical (L : LongForm Int64) (depth : Nat) :
    (codec L).Keeps depth fun _ t => L.Canonical t.seconds where
  more _ canonical := canonical
  field := by
    simp only [codec, List.forall_mem_cons]
    refine ⟨?_, ?_, by simp⟩
    · intro tag n t canonical
      exact (LongForm.ensures_codec Word.lawful_signed depth).map _ fun _ _ held => held
    · intro tag n t canonical
      exact (Wire.Read.confined_int32 depth).map _ fun _ _ _ => canonical

theorem bounded_message (t : Timestamp L) : (ValueCodec.message (codec L)).Bounded t 35 := by
  refine MessageCodec.bounded_message (n := 15) ?_ (by simp [codec])
  simp only [codec, List.forall_mem_cons]
  exact ⟨FieldCodec.bounded_required (by decide) (LongForm.bounded_codec Word.lawful_signed _),
    FieldCodec.bounded_required (by decide) (ValueCodec.bounded_int32 _), by simp⟩

theorem toMoment_eq_ok {t : Timestamp L} {m : Moment} : t.toMoment = .ok m ↔
    ∃ seconds, L.toWord t.seconds = .ok seconds ∧
      Moment.ofNanos? (seconds.toInt * Time.nanosPerSecond + t.nanos.toInt) = some m := by
  rw [toMoment]
  cases L.toWord t.seconds with
  | error e => exact ⟨nofun, nofun⟩
  | ok seconds =>
    simp only [bind, Except.bind, Except.ok.injEq, exists_eq_left']
    split
    next m' found => simp [found, pure, Except.pure]
    next missing => simp [missing, throw, throwThe, MonadExceptOf.throw]

theorem toText_eq_ok {t : Timestamp L} {s : String} : t.toText = .ok s ↔
    ∃ m, t.toMoment = .ok m ∧ m.text? = some s := by
  rw [toText]
  cases t.toMoment with
  | error e => exact ⟨nofun, nofun⟩
  | ok m =>
    simp only [bind, Except.bind, Except.ok.injEq, exists_eq_left']
    split
    next s' written => simp [written, pure, Except.pure]
    next missing => simp [missing, throw, throwThe, MonadExceptOf.throw]

theorem word_of_isRepresentable {nanos : Int} (inside : Moment.isRepresentable nanos = true) :
    Range.int64.contains (Moment.mk nanos 0).seconds = true := by
  have bounds := Moment.isRepresentable_iff.1 inside
  simp only [Range.contains_iff, Moment.seconds, Time.nanosPerSecond, Range.int64]
  omega

theorem toMoment_ofMoment_eq (form : L.Lawful) {m : Moment} (word : Range.int64.contains m.seconds = true) :
    toMoment (ofMoment m : Timestamp L) =
      match Moment.ofNanos? m.nanos with
      | some m' => .ok m'
      | none => .error .invalidTimestamp := by
  obtain ⟨low, high⟩ := Range.contains_iff.1 word
  have seconds : (Int64.ofInt m.seconds).toInt = m.nanos / 1000000000 := Int64.toInt_ofInt_of_le low high
  have subsecond : (Int32.ofNat m.subsecond).toInt = m.nanos % 1000000000 := by
    rw [Moment.subsecond, Time.nanosPerSecond, Int32.toInt_ofNat_of_lt (by omega)]
    omega
  have whole : m.nanos / 1000000000 * 1000000000 + m.nanos % 1000000000 = m.nanos := by omega
  simp only [toMoment, ofMoment, form.toWord_ofWord, bind, Except.bind, Time.nanosPerSecond, seconds, subsecond,
    whole]
  cases Moment.ofNanos? m.nanos <;> rfl

theorem toMoment_ofMoment (form : L.Lawful) {nanos : Int}
    (inside : Moment.isRepresentable nanos = true) :
    toMoment (ofMoment ⟨nanos, 0⟩ : Timestamp L) = .ok ⟨nanos, 0⟩ := by
  rw [toMoment_ofMoment_eq form (word_of_isRepresentable inside), Moment.ofNanos?, if_pos inside]

theorem utc_of_toMoment {t : Timestamp L} {m : Moment} (held : t.toMoment = .ok m) :
    ∃ nanos, m = ⟨nanos, 0⟩ ∧ Moment.isRepresentable nanos = true := by
  obtain ⟨seconds, -, found⟩ := toMoment_eq_ok.1 held
  simp only [Moment.ofNanos?] at found
  split at found
  next inside => exact ⟨_, (Option.some.inj found).symm, inside⟩
  next => cases found

end Timestamp

namespace DateForm

-- The value stands for a timestamp, which is held as that value again.
def Canonical (D : DateForm L) (a : D.Carrier) : Prop :=
  ∃ t, D.toTimestamp a = .ok t ∧ L.Canonical t.seconds ∧ D.ofTimestamp t = .ok a

-- What a form makes of a timestamp is canonical.
def Lawful (D : DateForm L) : Prop :=
  ∀ t a, L.Canonical t.seconds → D.ofTimestamp t = .ok a → D.Canonical a

theorem lawful_timestamp : (timestamp L).Lawful := by
  intro t a canonical held
  cases held
  exact ⟨t, rfl, canonical, rfl⟩

theorem canonical_moment (form : L.Lawful) {nanos : Int} (inside : Moment.isRepresentable nanos = true) :
    (moment L).Canonical ⟨nanos, 0⟩ :=
  ⟨.ofMoment ⟨nanos, 0⟩, rfl, ⟨_, rfl⟩, Timestamp.toMoment_ofMoment form inside⟩

theorem lawful_moment (form : L.Lawful) : (moment L).Lawful := by
  intro t m _ held
  obtain ⟨nanos, rfl, inside⟩ := Timestamp.utc_of_toMoment held
  exact canonical_moment form inside

theorem canonical_text (form : L.Lawful) {nanos : Int} {s : String}
    (written : (Moment.mk nanos 0).text? = some s) : (text L).Canonical s := by
  obtain ⟨read, inside⟩ := Moment.parse?_text written
  refine ⟨.ofMoment ⟨nanos, 0⟩, ?_, ⟨_, rfl⟩, ?_⟩
  · simp only [Timestamp.ofText, read]
  · exact Timestamp.toText_eq_ok.2 ⟨_, Timestamp.toMoment_ofMoment form inside, written⟩

theorem lawful_text (form : L.Lawful) : (text L).Lawful := by
  intro t s _ held
  obtain ⟨m, moment, written⟩ := Timestamp.toText_eq_ok.1 held
  obtain ⟨nanos, rfl, -⟩ := Timestamp.utc_of_toMoment moment
  exact canonical_text form written

variable {D : DateForm L}

theorem carries_codec (form : L.Lawful) (shallow : depth < Wire.recursionLimit) {a : D.Carrier}
    (canonical : D.Canonical a) : D.codec.Carries depth a a := by
  obtain ⟨t, out, seconds, back⟩ := canonical
  exact (MessageCodec.carries_message (Timestamp.numbered L) shallow
    (Timestamp.delivers form seconds)).via out back

theorem confined_codec (D : DateForm L) : Confined 1 D.codec.read :=
  ValueCodec.confined_via _ _ (MessageCodec.confined_message (Timestamp.local_codec L))

theorem ensures_codec (form : L.Lawful) (lawful : D.Lawful) (depth : Nat) :
    Ensures D.codec.read depth fun _ a => D.Canonical a := by
  have held := MessageCodec.ensures_message (Timestamp.local_codec L)
    (Timestamp.keeps_canonical L (depth + 1)) form.canonical_zero
  refine ValueCodec.ensures_via _ _ held ?_
  rintro _ t a ⟨-, -, -, seconds⟩ back
  exact lawful t a seconds back

theorem bounded_codec (a : D.Carrier) : D.codec.Bounded a 35 :=
  ValueCodec.bounded_via _ fun t _ => Timestamp.bounded_message t

end DateForm

-- A timestamp within the calendar stands for one moment, and is what that moment is written as.

namespace Timestamp

open Time (Date)

def held (L : LongForm Int64) (t : Timestamp (.number .signed)) : Timestamp L :=
  ⟨L.ofWord t.seconds, t.nanos⟩

def instant (t : Timestamp (.number .signed)) : Int :=
  t.seconds.toInt * 1000000000 + t.nanos.toInt

-- The nanoseconds are those of one second.
def Normal (t : Timestamp (.number .signed)) : Prop :=
  0 ≤ t.nanos.toInt ∧ t.nanos.toInt ≤ 999999999

def InYears (first last : Int) (t : Timestamp (.number .signed)) : Prop :=
  (Date.mk first 1 1).toDays * 86400 ≤ t.seconds.toInt ∧
    t.seconds.toInt < (Date.mk (last + 1) 1 1).toDays * 86400

instance (t : Timestamp (.number .signed)) : Decidable t.Normal :=
  inferInstanceAs (Decidable (_ ∧ _))

instance (first last : Int) (t : Timestamp (.number .signed)) : Decidable (t.InYears first last) :=
  inferInstanceAs (Decidable (_ ∧ _))

theorem ofMoment_instant {t : Timestamp (.number .signed)} (normal : t.Normal) :
    ofMoment ⟨t.instant, 0⟩ = t.held L := by
  obtain ⟨low, high⟩ := normal
  have seconds : t.instant / 1000000000 = t.seconds.toInt := by
    rw [instant]
    omega
  have subsecond : (t.instant % 1000000000).toNat = t.nanos.toInt.toNat := by
    rw [instant]
    omega
  have nanos : Int32.ofNat t.nanos.toInt.toNat = t.nanos := by
    rw [← Int32.toInt_inj, Int32.toInt_ofNat_of_lt (by omega)]
    omega
  simp only [ofMoment, held, Moment.seconds, Moment.subsecond, Time.nanosPerSecond, seconds, subsecond, nanos,
    Int64.ofInt_toInt]

theorem isRepresentable_instant {t : Timestamp (.number .signed)} (normal : t.Normal)
    (years : t.InYears (-9999) 9999) : Moment.isRepresentable t.instant = true := by
  obtain ⟨low, high⟩ := normal
  obtain ⟨first, last⟩ := years
  have start : (Date.mk (-9999) 1 1).toDays = -4371587 := by decide
  have stop : (Date.mk (9999 + 1) 1 1).toDays = 2932897 := by decide
  rw [Moment.isRepresentable_iff, instant]
  omega

theorem toMoment_held (form : L.Lawful) {t : Timestamp (.number .signed)}
    (inside : Moment.isRepresentable t.instant = true) : (t.held L).toMoment = .ok ⟨t.instant, 0⟩ := by
  refine toMoment_eq_ok.2 ⟨t.seconds, form.toWord_ofWord t.seconds, ?_⟩
  exact if_pos inside

theorem exists_text_instant {t : Timestamp (.number .signed)} (normal : t.Normal)
    (years : t.InYears 0 9999) : ∃ s, (Moment.mk t.instant 0).text? = some s := by
  obtain ⟨low, high⟩ := normal
  obtain ⟨first, last⟩ := years
  apply Moment.exists_text? <;> rw [instant] <;> omega

end Timestamp

end Protogen.WellKnown
