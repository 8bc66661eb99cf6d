import Protogen.Proofs.Codec.JsonMessage
import Protogen.Proofs.WellKnown.Timestamp

set_option autoImplicit false

namespace Protogen

open Number (Range intText)

namespace Word

-- Texts of integers are read with more bits than words have.
theorem wide_signed (n : Int64) : Range.int128.contains (signed.toInt n) = true := by
  have low := n.le_toInt
  have high := n.toInt_lt
  refine Range.contains_iff.2 ⟨?_, ?_⟩ <;> simp only [Range.int128, signed] <;> omega

theorem wide_unsigned (n : UInt64) : Range.int128.contains (unsigned.toInt n) = true := by
  have high := n.toNat_lt
  refine Range.contains_iff.2 ⟨?_, ?_⟩ <;> simp only [Range.int128, unsigned] <;> omega

end Word

namespace LongForm

variable {W : Type} {w : Word W} {L : LongForm W}

-- The values that words are held as come back from JSON.
def Readable (L : LongForm W) : Prop :=
  ∀ n, L.json.Returns (L.ofWord n) (L.ofWord n)

theorem Readable.canonical (readable : L.Readable) {a : L.Carrier} (canonical : L.Canonical a) :
    L.json.Returns a a := by
  obtain ⟨n, rfl⟩ := canonical
  exact readable n

theorem toIntegerIn_intText {r : Range} {i : Int} (inside : r.contains i = true)
    (wide : Range.int128.contains i = true) : (Json.string (String.ofList (intText i))).toIntegerIn r = .ok i := by
  simp only [Json.toIntegerIn, Json.toInteger, String.toList_ofList, Text.trim_intText, Range.read?_intText wide]
  exact if_pos inside

theorem readable_number (lawful : w.Lawful) : (number w).Readable := by
  refine fun n => ⟨rfl, ?_⟩
  change ((Json.int (w.toInt n)).toIntegerIn w.range).map w.ofInt = .ok n
  rw [JsonCodec.toIntegerIn_int (lawful.contains n), Except.map, lawful.ofInt_toInt]

theorem readable_text (lawful : w.Lawful) (wide : ∀ n, Range.int128.contains (w.toInt n) = true) :
    (text w).Readable := by
  refine fun n => ⟨rfl, ?_⟩
  change ((Json.string (String.ofList (intText (w.toInt n)))).toIntegerIn w.range).map _ = _
  rw [toIntegerIn_intText (lawful.contains n) (wide n)]
  rfl

theorem readable_big (lawful : w.Lawful) (wide : ∀ n, Range.int128.contains (w.toInt n) = true) :
    (big w).Readable :=
  fun n => ⟨rfl, toIntegerIn_intText (lawful.contains n) (wide n)⟩

end LongForm

namespace WellKnown

open Time (Moment)

variable {L : LongForm Int64}

theorem Timestamp.read_write {t : Timestamp L} (seconds : L.json.Returns t.seconds t.seconds) :
    (json L).read ((json L).write t) = .ok t := by
  apply JsonMessage.read_write
  · exact .of_keys ["seconds", "nanos"] rfl (by decide)
  · exact .through _ (JsonField.delivers_required seconds)
      (.through _ (JsonField.delivers_required (JsonCodec.returns_int32 t.nanos)) (.nil t))

namespace DateForm

theorem returns_timestamp {t : Timestamp (.number .signed)} (normal : t.Normal) :
    (timestamp (.number .signed)).json.Returns t t := by
  cases written : t.toText with
  | ok s =>
    obtain ⟨m, moment, text⟩ := Timestamp.toText_eq_ok.1 written
    obtain ⟨nanos, rfl, -⟩ := Timestamp.utc_of_toMoment moment
    have instant : nanos = t.instant := by
      obtain ⟨seconds, ⟨⟩, found⟩ := Timestamp.toMoment_eq_ok.1 moment
      simp only [Moment.ofNanos?] at found
      split at found <;> cases found
      rfl
    have read : Timestamp.ofText s = .ok t := by
      simp only [Timestamp.ofText, (Moment.parse?_text text).1, instant, Timestamp.ofMoment_instant normal]
      rfl
    simp only [JsonCodec.Returns, written]
    exact ⟨rfl, read⟩
  | error e =>
    simp only [JsonCodec.Returns, written]
    exact ⟨rfl, Timestamp.read_write (LongForm.readable_number Word.lawful_signed t.seconds)⟩

theorem returns_moment (form : L.Lawful) (readable : L.Readable) {nanos : Int}
    (inside : Moment.isRepresentable nanos = true) : (moment L).json.Returns ⟨nanos, 0⟩ ⟨nanos, 0⟩ := by
  cases written : (Moment.mk nanos 0).text? with
  | some s =>
    simp only [JsonCodec.Returns, written, (Moment.parse?_text written).1]
    exact ⟨rfl, trivial⟩
  | none =>
    have read : (Timestamp.json L).read ((Timestamp.json L).write (.ofMoment ⟨nanos, 0⟩)) =
        .ok (.ofMoment ⟨nanos, 0⟩) := Timestamp.read_write (readable _)
    simp only [JsonCodec.Returns, written]
    refine ⟨rfl, ?_⟩
    change ((Timestamp.json L).read ((Timestamp.json L).write (.ofMoment ⟨nanos, 0⟩))).bind Timestamp.toMoment = _
    rw [read]
    exact Timestamp.toMoment_ofMoment form inside

theorem returns_text (s : String) : (text L).json.Returns s s :=
  ⟨rfl, rfl⟩

end DateForm

end WellKnown

end Protogen
