import Protogen.Proofs.Codec.Parallel
import Protogen.Proofs.Wire.Acceptance

set_option autoImplicit false

namespace Protogen

open Wire (Value Varint WireType)
open Wire.Read (Takes Ensures Confined Pieces)

namespace Wire

variable {levels tag n : Nat} {bytes front more : List UInt8}

-- The bytes are the beginning of no value of the wire type but themselves.
def Whole (t : WireType) (bytes : List UInt8) : Prop :=
  ∀ levels tag value, tag % 8 = t.number → Value levels tag value → bytes <+: value → bytes = value

theorem Varint.unique {rest : List UInt8} {m : Nat} (number : Varint 0 bytes n) (number' : Varint 0 front m)
    (stand : bytes <+: rest) (stand' : front <+: rest) : bytes = front ∧ n = m := by
  have takes : Read.Takes Read.varint 0 bytes n := Read.takes_number number
  exact takes.unique_front (Read.takes_number number') stand stand'

theorem whole_varint (number : Varint 0 bytes n) : Whole .varint bytes := by
  intro levels tag value type grammar stand
  cases grammar with
  | varint _ number' => exact (number.unique number' stand List.prefix_rfl).1
  | fixed64 type' | fixed32 type' | delimited type' | group type' =>
    rw [type] at type'
    cases type'

theorem whole_fixed64 (size : bytes.length = 8) : Whole .fixed64 bytes := by
  intro levels tag value type grammar stand
  cases grammar with
  | fixed64 _ size' => exact stand.eq_of_length (size.trans size'.symm)
  | varint type' | fixed32 type' | delimited type' | group type' =>
    rw [type] at type'
    cases type'

theorem whole_delimited (number : Varint 0 front n) (long : n % 4294967296 ≤ more.length) :
    Whole .delimited (front ++ more) := by
  intro levels tag value type grammar stand
  cases grammar with
  | @delimited _ _ n' front' content _ number' size =>
    obtain ⟨rfl, rfl⟩ := number.unique number' ((List.prefix_append front more).trans stand)
      (List.prefix_append front' content)
    refine stand.eq_of_length_le ?_
    rw [List.length_append, List.length_append]
    omega
  | varint type' | fixed64 type' | fixed32 type' | group type' =>
    rw [type] at type'
    cases type'

end Wire

namespace ValueCodec

variable {α β : Type}

def Whole (c : ValueCodec α) : Prop :=
  ∀ depth, Ensures c.read depth fun bytes _ => Wire.Whole c.wireType bytes

theorem whole_varint (f : Nat → α) (depth : Nat) :
    Ensures (do return f (← Wire.Read.varint)) depth fun bytes _ => Wire.Whole .varint bytes :=
  (Wire.Read.ensures_number depth).map f fun _ _ number => Wire.whole_varint number

theorem whole_length {next : Nat → Wire.Read α} (rest : ∀ n, Confined n (next n)) (depth : Nat) :
    Ensures (Wire.Read.length >>= next) depth fun bytes _ => Wire.Whole .delimited bytes := by
  refine (Wire.Read.ensures_length_of depth).bind ?_
  rintro front _ ⟨n, number, rfl⟩
  exact (rest _ depth).weaken fun more a taken => Wire.whole_delimited number taken.1

theorem whole_int32 : int32.Whole := whole_varint _
theorem whole_int64 : int64.Whole := whole_varint _
theorem whole_uint64 : uint64.Whole := whole_varint _
theorem whole_bool : bool.Whole := whole_varint _

theorem whole_double : double.Whole := by
  intro depth
  have fixed : Ensures (Wire.Read.fixed 8) depth fun bytes _ => Wire.Whole .fixed64 bytes :=
    (Wire.Read.ensures_slice depth 8).map _ fun _ _ taken => Wire.whole_fixed64 taken.1
  have word : Ensures Wire.Read.fixed64 depth fun bytes _ => Wire.Whole .fixed64 bytes :=
    fixed.map _ fun _ _ held => held
  exact word.map _ fun _ _ held => held

theorem whole_bytes : bytes.Whole :=
  whole_length Wire.Read.confined_slice

theorem whole_string : string.Whole := by
  intro depth
  refine (whole_bytes depth).bind fun bytes b whole => ?_
  split
  next =>
    refine Ensures.pure ?_
    rwa [List.append_nil]
  next => exact Ensures.throw _

theorem whole_message {μ : Type} {c : MessageCodec μ} (fields : c.Local) : (message c).Whole :=
  whole_length fun n => (MessageCodec.confined_read fields n).nested

theorem Whole.via {c : ValueCodec β} (whole : c.Whole) (toWire : α → Except CodecError β)
    (ofWire : β → Except CodecError α) : (c.via toWire ofWire).Whole :=
  fun depth => ensures_via toWire ofWire (whole depth) fun _ _ _ held _ => held

end ValueCodec

namespace FieldCodec

variable {μ α : Type}

def Whole (f : FieldCodec μ) (t : WireType) : Prop :=
  ∀ tag m depth, Ensures (f.read tag m) depth fun bytes _ => Wire.Whole t bytes

theorem whole_of_set {f : FieldCodec μ} {c : ValueCodec α} {set : α → μ → μ} (whole : c.Whole)
    (sets : ∀ tag m, f.read tag m = do return set (← c.read) m) : f.Whole c.wireType := by
  intro tag m depth
  rw [sets]
  exact (whole depth).map (set · m) fun _ _ held => held

end FieldCodec

namespace MessageCodec

variable {μ : Type} {c : MessageCodec μ} {f : FieldCodec μ} {t : WireType} {n : Nat} {m : μ}
  {front bytes : List UInt8}

theorem takes_named {depth : Nat} {m' : μ} (number : Varint 0 front n)
    (found : c.fields.find? (·.number == n % 4294967296 / 8) = some f)
    (takes : Takes (f.read (n % 4294967296) m) depth bytes m') : Takes (c.readRecord m) depth (front ++ bytes) m' := by
  refine (Wire.Read.takes_tag_of number).bind ?_
  rw [found]
  exact takes

theorem takes_of_decode_at (fields : c.Local) (number : Varint 0 front n)
    (value : Value Wire.recursionLimit (n % 4294967296) bytes) (type : n % 4294967296 % 8 = t.number)
    (found : c.fields.find? (·.number == n % 4294967296 / 8) = some f)
    (whole : Ensures (f.read (n % 4294967296) c.base) 0 fun bytes _ => Wire.Whole t bytes)
    (accepted : c.decode ⟨(front ++ bytes).toArray⟩ = .ok m) :
    ∃ m', Takes (f.read (n % 4294967296) c.base) 0 bytes m' := by
  have positive := Wire.Read.length_number_pos number
  have pieces := pieces_of_decode fields accepted
  simp only [ByteArray.size, List.size_toArray, List.length_append] at pieces
  generalize all : front ++ bytes = record at pieces
  generalize total : front.length + bytes.length = k at pieces
  cases pieces with
  | done => omega
  | @step _ _ m₁ _ piece more left nonempty first =>
    have stand : piece <+: front ++ bytes := ⟨more, all.symm⟩
    obtain ⟨payload, rfl, takes⟩ :=
      Confined.split (confined_afterTag fields c.base) (Wire.Read.takes_tag_of number) first stand
    rw [found] at takes
    -- Nothing else is in the buffer, so what is taken cannot go past the value.
    have inside : payload <+: bytes := (List.prefix_append_right_inj front).1 stand
    obtain rfl := takes.of_ensures whole _ _ _ type value inside
    exact ⟨m₁, takes⟩

theorem takes_of_decode (fields : c.Local) (number : Varint 0 front n)
    (value : Value Wire.recursionLimit (n % 4294967296) bytes) (type : n % 4294967296 % 8 = t.number)
    (found : c.fields.find? (·.number == n % 4294967296 / 8) = some f) (whole : f.Whole t)
    (accepted : c.decode ⟨(front ++ bytes).toArray⟩ = .ok m) :
    ∃ m', Takes (f.read (n % 4294967296) c.base) 0 bytes m' :=
  takes_of_decode_at fields number value type found (whole _ c.base 0) accepted

end MessageCodec

end Protogen
