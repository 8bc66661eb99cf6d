import Protogen.Time.Moment
import Protogen.WellKnown.Long

set_option autoImplicit false

namespace Protogen.WellKnown

open Time (Moment)

structure Timestamp (L : LongForm Int64) where
  seconds : L.Carrier
  nanos : Int32

structure PartialTimestamp (L : LongForm Int64) where
  seconds : Option L.Carrier
  nanos : Option Int32

namespace Timestamp

variable {L : LongForm Int64}

def base : Timestamp L := ⟨L.zero, 0⟩

def codec (L : LongForm Int64) : MessageCodec (Timestamp L) where
  base := base
  fields := [
    .required 1 (L.codec .signed) L.isZero (·.seconds) fun a t => { t with seconds := a },
    .required 2 .int32 (· == 0) (·.nanos) fun a t => { t with nanos := a }]

def json (L : LongForm Int64) : JsonMessage (Timestamp L) where
  base := base
  fields := [
    .required "seconds" L.json (·.seconds) fun a t => { t with seconds := a },
    .required "nanos" .int32 (·.nanos) fun a t => { t with nanos := a }]

def ofPartial (p : PartialTimestamp L) : Timestamp L :=
  ⟨p.seconds.getD L.zero, p.nanos.getD 0⟩

def ofMoment (m : Moment) : Timestamp L :=
  ⟨L.ofWord (Int64.ofInt m.seconds), Int32.ofNat m.subsecond⟩

-- The moment in UTC, within the calendar's years. Nanoseconds may count any number of seconds, back or forth.
def toMoment (t : Timestamp L) : Except CodecError Moment := do
  let seconds ← L.toWord t.seconds
  match Moment.ofNanos? (seconds.toInt * Time.nanosPerSecond + t.nanos.toInt) with
  | some m => return m
  | none => throw .invalidTimestamp

def ofText (s : String) : Except CodecError (Timestamp L) :=
  match Moment.parse? s with
  | some m => .ok (ofMoment m)
  | none => .error .invalidTimestamp

def toText (t : Timestamp L) : Except CodecError String := do
  match (← t.toMoment).text? with
  | some s => return s
  | none => throw .invalidTimestamp

end Timestamp

/-- A form that timestamps are held in, all of them the same message on the wire. -/
structure DateForm (L : LongForm Int64) where
  Carrier : Type
  toTimestamp : Carrier → Except CodecError (Timestamp L)
  ofTimestamp : Timestamp L → Except CodecError Carrier
  json : JsonCodec Carrier
  Partial : Type
  ofPartial : Partial → Carrier

namespace DateForm

variable {L : LongForm Int64}

-- Timestamps as they are. In JSON they are texts, where there is one, and may be given as objects.
@[reducible] def timestamp (L : LongForm Int64) : DateForm L where
  Carrier := Timestamp L
  toTimestamp t := .ok t
  ofTimestamp t := .ok t
  json :=
    { read := fun v =>
        match v with
        | .string s => Timestamp.ofText s
        | v => (Timestamp.json L).read v
      write := fun t =>
        match t.toText with
        | .ok s => .string s
        | .error _ => (Timestamp.json L).write t }
  Partial := PartialTimestamp L
  ofPartial := Timestamp.ofPartial

-- Moments, which keep the offset of the text that they were read from.
@[reducible] def moment (L : LongForm Int64) : DateForm L where
  Carrier := Moment
  toTimestamp m := .ok (.ofMoment m)
  ofTimestamp t := t.toMoment
  json :=
    { read := fun v =>
        match v with
        | .string s =>
          match Moment.parse? s with
          | some m => .ok m
          | none => .error .invalidTimestamp
        | v => do ((← (Timestamp.json L).read v).toMoment)
      write := fun m =>
        match m.text? with
        | some s => .string s
        | none => (Timestamp.json L).write (.ofMoment m) }
  Partial := Moment
  ofPartial m := m

-- Texts. Any text may be held, but only that of a moment can be written.
@[reducible] def text (L : LongForm Int64) : DateForm L where
  Carrier := String
  toTimestamp := Timestamp.ofText
  ofTimestamp := Timestamp.toText
  json :=
    { read := fun v =>
        match v with
        | .string s => .ok s
        | v => do ((← (Timestamp.json L).read v).toText)
      write := .string }
  Partial := String
  ofPartial s := s

def codec (form : DateForm L) : ValueCodec form.Carrier :=
  (ValueCodec.message (Timestamp.codec L)).via form.toTimestamp form.ofTimestamp

end DateForm

end Protogen.WellKnown
