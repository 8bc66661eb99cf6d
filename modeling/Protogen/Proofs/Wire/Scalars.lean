import Protogen.Proofs.Wire.Acceptance

set_option autoImplicit false

namespace Protogen.Wire

open Number (Double Single)

/-- The bytes are read as the number, and no fewer bytes are. -/
structure Shortest (n : Nat) (bytes : List UInt8) : Prop where
  number : Varint 0 bytes n
  least : ∀ other, Varint 0 other n → bytes.length ≤ other.length

theorem shortest_varintBytes {n : Nat} (word : n < 18446744073709551616) : Shortest n (varintBytes n) where
  number := (Read.takes_varint 0 word).of_ensures (Read.ensures_number 0)
  least other number := by
    obtain ⟨nonempty, fits, -⟩ := (Read.takes_number number).of_ensures (Read.ensures_varint 0)
    exact length_varintBytes_le nonempty fits

theorem length_varintBytes_word {n : Nat} (word : n < 18446744073709551616) : (varintBytes n).length ≤ 10 :=
  length_varintBytes_le (by decide) (Nat.lt_of_lt_of_le word (by decide))

theorem unzigzag_zigzag (i : Int) : Read.unzigzag (zigzag i) = i := by
  unfold Read.unzigzag zigzag
  by_cases sign : 0 ≤ i
  next =>
    rw [if_pos sign]
    split <;> omega
  next =>
    rw [if_neg sign]
    split <;> omega

theorem zigzag_lt {i half : Int} (low : -half ≤ i) (high : i < half) : zigzag i < 2 * half := by
  unfold zigzag
  split <;> omega

theorem zigzag_int32_lt (i : Int32) : zigzag i.toInt < 4294967296 := by
  have := zigzag_lt i.le_toInt i.toInt_lt
  omega

theorem zigzag_int64_lt (i : Int64) : zigzag i.toInt < 18446744073709551616 := by
  have := zigzag_lt i.le_toInt i.toInt_lt
  omega

theorem ofNat_toUInt32 (i : Int32) : Int32.ofNat i.toUInt32.toNat = i := by
  have same : BitVec.ofNat 32 i.toBitVec.toNat = i.toBitVec := by
    rw [BitVec.ofNat_toNat, BitVec.setWidth_eq]
  exact congrArg Int32.ofBitVec same

inductive Kind where
  | uint32
  | int32
  | sint32
  | uint64
  | int64
  | sint64
  | bool
  | fixed32
  | sfixed32
  | fixed64
  | sfixed64
  | single
  | double
  | bytes
  | string
  deriving DecidableEq

namespace Kind

@[reducible] def Value : Kind → Type
  | uint32 | fixed32 => UInt32
  | int32 | sint32 | sfixed32 => Int32
  | uint64 | fixed64 => UInt64
  | int64 | sint64 | sfixed64 => Int64
  | bool => Bool
  | single => Single
  | double => Double
  | bytes => ByteArray
  | string => String

def read : (k : Kind) → Read k.Value
  | uint32 => Read.uint32
  | int32 => Read.int32
  | sint32 => Read.sint32
  | uint64 => Read.uint64
  | int64 => Read.int64
  | sint64 => Read.sint64
  | bool => Read.bool
  | fixed32 => Read.fixed32
  | sfixed32 => Read.sfixed32
  | fixed64 => Read.fixed64
  | sfixed64 => Read.sfixed64
  | single => Read.single
  | double => Read.double
  | bytes => Read.bytes
  | string => Read.string

def write (w : Writer) : (k : Kind) → k.Value → Writer
  | uint32, n => w.uint32 n
  | int32, i => w.int32 i
  | sint32, i => w.sint32 i
  | uint64, n => w.uint64 n
  | int64, i => w.int64 i
  | sint64, i => w.sint64 i
  | bool, b => w.bool b
  | fixed32, n => w.fixed32 n
  | sfixed32, i => w.sfixed32 i
  | fixed64, n => w.fixed64 n
  | sfixed64, i => w.sfixed64 i
  | single, x => w.single x
  | double, x => w.double x
  | bytes, b => w.bytes b
  | string, s => w.string s

-- The number in groups of seven bits that a value begins with: itself, or how many bytes it has.
def number? : (k : Kind) → k.Value → Option Nat
  | uint32, n => some n.toNat
  | int32, i => some i.toInt64.toUInt64.toNat
  | sint32, i => some (zigzag i.toInt)
  | uint64, n => some n.toNat
  | int64, i => some i.toUInt64.toNat
  | sint64, i => some (zigzag i.toInt)
  | bool, b => some b.toNat
  | bytes, b => some b.size
  | string, s => some s.utf8ByteSize
  | fixed32, _ | sfixed32, _ | fixed64, _ | sfixed64, _ | single, _ | double, _ => none

def content : (k : Kind) → k.Value → List UInt8
  | fixed32, n => Bytes.fixed32 n
  | sfixed32, i => Bytes.sfixed32 i
  | fixed64, n => Bytes.fixed64 n
  | sfixed64, i => Bytes.sfixed64 i
  | single, x => Bytes.single x
  | double, x => Bytes.double x
  | bytes, b => b.data.toList
  | string, s => s.toUTF8.data.toList
  | uint32, _ | int32, _ | sint32, _ | uint64, _ | int64, _ | sint64, _ | bool, _ => []

end Kind

structure Scalar where
  kind : Kind
  value : kind.Value

namespace Scalar

def write (w : Writer) (v : Scalar) : Writer :=
  v.kind.write w v.value

def number? (v : Scalar) : Option Nat :=
  v.kind.number? v.value

def content (v : Scalar) : List UInt8 :=
  v.kind.content v.value

def bytes (v : Scalar) : List UInt8 :=
  (v.number?.elim [] varintBytes) ++ v.content

-- Texts and bytes have a length that can be read back.
def Short (v : Scalar) : Prop :=
  v.content.length < 4294967296

instance (v : Scalar) : Decidable v.Short :=
  inferInstanceAs (Decidable (v.content.length < 4294967296))

def writeAll (w : Writer) (vs : List Scalar) : Writer :=
  vs.foldl write w

def readAll (kinds : List Kind) : Read (List Scalar) :=
  kinds.mapM fun k => do return ⟨k, ← k.read⟩

end Scalar

namespace Writer

def written (w : Writer) : List UInt8 :=
  w.data.data.toList

@[simp] theorem written_empty : Writer.empty.written = [] := rfl

theorem written_push (w : Writer) (bytes : List UInt8) : (w.push bytes).written = w.written ++ bytes := by
  induction bytes generalizing w with
  | nil => rw [List.append_nil]; rfl
  | cons b bytes ih =>
    have first : Writer.written { w with data := w.data.push b } = w.written ++ [b] := by
      simp [written, ByteArray.push]
    calc (w.push (b :: bytes)).written
        = (Writer.push { w with data := w.data.push b } bytes).written := rfl
      _ = w.written ++ (b :: bytes) := by rw [ih, first, List.append_assoc, List.singleton_append]

theorem written_append (w : Writer) (b : ByteArray) :
    (w.append b).written = w.written ++ b.data.toList := by
  simp [written, append]

theorem written_bytes (w : Writer) (b : ByteArray) :
    (w.bytes b).written = w.written ++ Bytes.delimited b.data.toList := by
  rw [bytes, written_append, varint, written_push, List.append_assoc, Bytes.delimited]
  rfl

end Writer

namespace Scalar

theorem written_write (w : Writer) (v : Scalar) : (v.write w).written = w.written ++ v.bytes := by
  obtain ⟨kind, value⟩ := v
  cases kind with
  | bytes | string =>
    refine (w.written_bytes _).trans ?_
    rfl
  | uint32 | int32 | sint32 | uint64 | int64 | sint64 | bool =>
    refine (w.written_push _).trans ?_
    rw [bytes, content, Kind.content, List.append_nil]
    rfl
  | fixed32 | sfixed32 | fixed64 | sfixed64 | single | double => exact w.written_push _

@[simp] theorem forks_write (w : Writer) (v : Scalar) : (v.write w).forks = w.forks := by
  obtain ⟨kind, value⟩ := v
  cases kind <;> rfl

theorem written_writeAll (w : Writer) (vs : List Scalar) :
    (writeAll w vs).written = w.written ++ vs.flatMap bytes := by
  induction vs generalizing w with
  | nil => simp [writeAll]
  | cons v vs ih =>
    have rest := ih (v.write w)
    rwa [written_write, List.append_assoc] at rest

end Scalar

namespace Read

variable {depth : Nat}

theorem takes_uint32 (depth : Nat) (n : UInt32) : Takes uint32 depth (Bytes.uint32 n) n := by
  have word : n.toNat < 18446744073709551616 := Nat.lt_trans n.toNat_lt (by decide)
  have takes := (takes_varint depth word).map UInt32.ofNat
  rwa [UInt32.ofNat_toNat] at takes

theorem takes_sint32 (depth : Nat) (i : Int32) : Takes sint32 depth (Bytes.sint32 i) i := by
  -- The bits that the read drops are none of this number's.
  have small := zigzag_int32_lt i
  have takes := (takes_varint depth (by omega : zigzag i.toInt < 18446744073709551616)).map
    fun n => Int32.ofInt (unzigzag (n % 4294967296))
  rwa [Nat.mod_eq_of_lt small, unzigzag_zigzag, Int32.ofInt_toInt] at takes

theorem takes_sint64 (depth : Nat) (i : Int64) : Takes sint64 depth (Bytes.sint64 i) i := by
  have takes := (takes_varint depth (zigzag_int64_lt i)).map fun n => Int64.ofInt (unzigzag n)
  rwa [unzigzag_zigzag, Int64.ofInt_toInt] at takes

theorem takes_fixed32 (depth : Nat) (n : UInt32) : Takes fixed32 depth (Bytes.fixed32 n) n := by
  have takes := (takes_fixed depth (k := 4) n.toNat_lt).map UInt32.ofNat
  rwa [UInt32.ofNat_toNat] at takes

theorem takes_sfixed32 (depth : Nat) (i : Int32) : Takes sfixed32 depth (Bytes.sfixed32 i) i := by
  have takes := (takes_fixed depth (k := 4) i.toUInt32.toNat_lt).map Int32.ofNat
  rwa [ofNat_toUInt32] at takes

theorem takes_fixed64 (depth : Nat) (n : UInt64) : Takes fixed64 depth (Bytes.fixed64 n) n := by
  have takes := (takes_fixed depth (k := 8) n.toNat_lt).map UInt64.ofNat
  rwa [UInt64.ofNat_toNat] at takes

theorem takes_sfixed64 (depth : Nat) (i : Int64) : Takes sfixed64 depth (Bytes.sfixed64 i) i := by
  have takes := (takes_fixed depth (k := 8) i.toUInt64.toNat_lt).map Int64.ofNat
  rwa [ofNat_toUInt64] at takes

theorem takes_single (depth : Nat) (x : Single) : Takes single depth (Bytes.single x) x :=
  (takes_fixed32 depth x.bits).map Single.mk

end Read

namespace Scalar

variable {depth : Nat}

theorem number_lt {v : Scalar} {n : Nat} (short : v.Short) (number : v.number? = some n) :
    n < 18446744073709551616 := by
  obtain ⟨kind, value⟩ := v
  cases kind <;> cases number
  case uint32 => exact Nat.lt_trans (UInt32.toNat_lt value) (by decide)
  case int32 => exact UInt64.toNat_lt _
  case sint32 => exact Nat.lt_trans (zigzag_int32_lt value) (by decide)
  case uint64 => exact UInt64.toNat_lt value
  case int64 => exact UInt64.toNat_lt _
  case sint64 => exact zigzag_int64_lt value
  case bool => exact Nat.lt_of_le_of_lt (Bool.toNat_le value) (by decide)
  case bytes => exact Nat.lt_trans short (by decide)
  case string => exact Nat.lt_trans short (by decide)

theorem bytes_of_number {v : Scalar} {n : Nat} (number : v.number? = some n) (alone : v.content = []) :
    v.bytes = varintBytes n := by
  rw [bytes, number, alone]
  exact List.append_nil _

theorem takes_read {v : Scalar} (short : v.Short) : Read.Takes v.kind.read depth v.bytes v.value := by
  obtain ⟨kind, value⟩ := v
  cases kind with
  | uint32 =>
    rw [bytes_of_number rfl rfl]
    exact Read.takes_uint32 depth value
  | int32 =>
    rw [bytes_of_number rfl rfl]
    exact Read.takes_int32 depth value
  | sint32 =>
    rw [bytes_of_number rfl rfl]
    exact Read.takes_sint32 depth value
  | uint64 =>
    rw [bytes_of_number rfl rfl]
    exact Read.takes_uint64 depth value
  | int64 =>
    rw [bytes_of_number rfl rfl]
    exact Read.takes_int64 depth value
  | sint64 =>
    rw [bytes_of_number rfl rfl]
    exact Read.takes_sint64 depth value
  | bool =>
    rw [bytes_of_number rfl rfl]
    exact Read.takes_bool depth value
  | fixed32 => exact Read.takes_fixed32 depth value
  | sfixed32 => exact Read.takes_sfixed32 depth value
  | fixed64 => exact Read.takes_fixed64 depth value
  | sfixed64 => exact Read.takes_sfixed64 depth value
  | single => exact Read.takes_single depth value
  | double => exact Read.takes_double depth value
  | bytes => exact Read.takes_bytes short
  | string => exact Read.takes_string short

theorem takes_readAll {vs : List Scalar} (short : ∀ v ∈ vs, v.Short) :
    Read.Takes (readAll (vs.map (·.kind))) depth (vs.flatMap bytes) vs := by
  induction vs with
  | nil => exact Read.Takes.pure depth []
  | cons v vs ih =>
    obtain ⟨first, rest⟩ := List.forall_mem_cons.1 short
    rw [readAll, List.map_cons, List.mapM_cons, List.flatMap_cons]
    exact ((takes_read first).map (Scalar.mk v.kind)).bind ((ih rest).map (v :: ·))

/-- Values that are written in a row are read back in a row, kind by kind, and not a byte more is taken. Each number
among their bytes is the shortest, of one to ten bytes. -/
theorem read_write_row (vs : List Scalar) (short : ∀ v ∈ vs, v.Short) (rest : ByteArray) :
    (writeAll .empty vs).written = vs.flatMap bytes ∧
    readAll (vs.map (·.kind)) (.ofBytes ((writeAll .empty vs).data ++ rest)) =
      .ok vs { data := (writeAll .empty vs).data ++ rest, index := (writeAll .empty vs).data.size } ∧
    ∀ v ∈ vs, ∀ n, v.number? = some n → v.bytes = varintBytes n ++ v.content ∧
      Shortest n (varintBytes n) ∧ 1 ≤ (varintBytes n).length ∧ (varintBytes n).length ≤ 10 := by
  have written := written_writeAll .empty vs
  rw [Writer.written_empty, List.nil_append] at written
  have size : (vs.flatMap bytes).length = (writeAll .empty vs).data.size := by
    rw [← written]
    exact Array.length_toList
  refine ⟨written, ?_, fun v member n number => ?_⟩
  · have here : (Reader.ofBytes ((writeAll .empty vs).data ++ rest)).At 0 (vs.flatMap bytes) := by
      refine ⟨rfl, Nat.zero_le _, rest.data.toList, ?_⟩
      rw [← written]
      simp [Reader.remaining, Reader.ofBytes, Writer.written]
    rw [takes_readAll short _ here, Reader.advance, size]
    simp [Reader.ofBytes]
  · have word := number_lt (short v member) number
    refine ⟨?_, shortest_varintBytes word, length_varintBytes_pos n, length_varintBytes_word word⟩
    rw [bytes, number]
    rfl

def extremes : List Scalar :=
  [⟨.int32, Int32.minValue⟩, ⟨.sint32, Int32.minValue⟩, ⟨.sint64, Int64.minValue⟩, ⟨.uint64, 18446744073709551615⟩,
    ⟨.bool, true⟩, ⟨.sfixed32, -7⟩, ⟨.fixed64, 7⟩, ⟨.single, ⟨0x7FC00001⟩⟩, ⟨.bytes, ⟨#[1, 2, 3]⟩⟩, ⟨.string, "🍕"⟩]

theorem read_write_row_extremes :
    (∀ v ∈ extremes, v.Short) ∧
      readAll [.int32, .sint32, .sint64, .uint64, .bool, .sfixed32, .fixed64, .single, .bytes, .string]
        (.ofBytes ((writeAll .empty extremes).data ++ ⟨#[0xFF]⟩)) =
          .ok extremes { data := (writeAll .empty extremes).data ++ ⟨#[0xFF]⟩, index := 61 } := by
  have short : ∀ v ∈ extremes, v.Short := by decide
  have size : (writeAll .empty extremes).data.size = 61 := by cbv
  have back := (read_write_row extremes short ⟨#[0xFF]⟩).2.1
  rw [size] at back
  exact ⟨short, back⟩

end Scalar

end Protogen.Wire
