import Protogen.Proofs.Codec.Message
import Protogen.Proofs.Except

set_option autoImplicit false

namespace Protogen

open Wire (varintBytes length_varintBytes_le)

theorem length_tag_le {number : Nat} (small : number < 536870912) (t : Wire.WireType) :
    (varintBytes (FieldCodec.tag number t)).length ≤ 5 := by
  have := FieldCodec.tag_lt small t
  exact length_varintBytes_le (by decide) (by omega)

theorem length_delimited_le {bytes : List UInt8} {n : Nat} (short : bytes.length ≤ n)
    (small : n < 34359738368) : (Wire.Bytes.delimited bytes).length ≤ n + 5 := by
  have front : (varintBytes bytes.length).length ≤ 5 := length_varintBytes_le (by decide) (by omega)
  rw [Wire.Bytes.delimited, List.length_append]
  omega

namespace ValueCodec

variable {α β : Type}

def Bounded (c : ValueCodec α) (a : α) (n : Nat) : Prop :=
  ∀ bytes, c.write a = .ok bytes → bytes.length ≤ n

theorem bounded_string {s : String} {n : Nat} (short : s.utf8ByteSize ≤ n) (small : n < 34359738368) :
    string.Bounded s (n + 5) := by
  intro bytes write
  cases write
  refine length_delimited_le ?_ small
  rwa [Array.length_toList]

theorem bounded_bytes {b : ByteArray} {n : Nat} (short : b.size ≤ n) (small : n < 34359738368) :
    bytes.Bounded b (n + 5) := by
  intro bytes write
  cases write
  refine length_delimited_le ?_ small
  rwa [Array.length_toList]

theorem bounded_int32 (i : Int32) : int32.Bounded i 10 := by
  intro bytes write
  cases write
  exact Wire.Read.length_int32_le i

theorem bounded_int64 (i : Int64) : int64.Bounded i 10 := by
  intro bytes write
  cases write
  exact length_varintBytes_le (by decide) (Nat.lt_of_lt_of_le i.toUInt64.toNat_lt (by decide))

theorem bounded_uint64 (n : UInt64) : uint64.Bounded n 10 := by
  intro bytes write
  cases write
  exact length_varintBytes_le (by decide) (Nat.lt_of_lt_of_le n.toNat_lt (by decide))

theorem bounded_bool (b : Bool) : bool.Bounded b 10 := by
  intro bytes write
  cases write
  exact length_varintBytes_le (by decide) (by cases b <;> decide)

theorem bounded_double (x : Number.Double) : double.Bounded x 10 := by
  intro bytes write
  cases write
  have := Wire.length_littleEndianBytes 8 x.bits.toNat
  change (Wire.littleEndianBytes 8 x.bits.toNat).length ≤ 10
  omega

theorem bounded_via {c : ValueCodec β} {toWire : α → Except CodecError β}
    (ofWire : β → Except CodecError α) {a : α} {n : Nat} (bounded : ∀ b, toWire a = .ok b → c.Bounded b n) :
    (c.via toWire ofWire).Bounded a n := by
  intro bytes write
  obtain ⟨b, out, write⟩ := ok_of_bind write
  exact bounded b out bytes write

end ValueCodec

namespace FieldCodec

variable {μ α : Type} {number n : Nat} {c : ValueCodec α} {set : α → μ → μ} {w : μ}

def Bounded (f : FieldCodec μ) (w : μ) (n : Nat) : Prop :=
  ∀ records, f.records w = .ok records → records.flatten.length ≤ n

-- The length of each of its records can be read back.
def Short (f : FieldCodec μ) (w : μ) : Prop :=
  ∀ records, f.records w = .ok records → ∀ record ∈ records, record.length < 4294967296

theorem Bounded.short {f : FieldCodec μ} (bounded : f.Bounded w n) (small : n < 4294967296) :
    f.Short w := by
  intro records write record member
  exact MessageCodec.short_of_flatten (Nat.lt_of_le_of_lt (bounded records write) small) record member

theorem length_record_le {a : α} {bytes : List UInt8} (named : number < 536870912)
    (bounded : c.Bounded a n) (write : record number c a = .ok bytes) : bytes.length ≤ n + 5 := by
  obtain ⟨payload, value, write⟩ := ok_of_bind write
  cases write
  have front := length_tag_le named c.wireType
  have back := bounded payload value
  rw [List.length_append]
  omega

theorem bounded_one {f : FieldCodec μ} {a : α} (named : number < 536870912)
    (one : f.records w = (do return [← record number c a])) (bounded : c.Bounded a n) :
    f.Bounded w (n + 5) := by
  intro records write
  rw [one] at write
  obtain ⟨bytes, first, write⟩ := ok_of_bind write
  cases write
  simpa using length_record_le named bounded first

theorem bounded_none {f : FieldCodec μ} (none : f.records w = .ok []) : f.Bounded w n := by
  intro records write
  rw [none] at write
  cases write
  exact Nat.zero_le n

theorem bounded_required {isDefault : α → Bool} {get : μ → α} (named : number < 536870912)
    (bounded : c.Bounded (get w) n) : (required number c isDefault get set).Bounded w (n + 5) := by
  cases default : isDefault (get w) with
  | true => exact bounded_none (by simp only [required, default, if_true]; rfl)
  | false => exact bounded_one named (by simp only [required, default]; rfl) bounded

theorem bounded_optional {get : μ → Option α} (named : number < 536870912)
    (bounded : ∀ a, get w = some a → c.Bounded a n) :
    (optional number c get set).Bounded w (n + 5) := by
  cases value : get w with
  | none => exact bounded_none (by simp only [optional, value])
  | some a => exact bounded_one named (by simp only [optional, value]) (bounded a value)

theorem short_repeated {get : μ → List α} (named : number < 536870912) (small : n < 4294967291)
    (bounded : ∀ a ∈ get w, c.Bounded a n) : (repeated number c get set).Short w := by
  intro records write record' member
  obtain ⟨a, member', same⟩ := mem_of_mapM write record' member
  have := length_record_le named (bounded a member') same
  omega

theorem length_run {size : α → Nat} (sized : ∀ a bytes, c.write a = .ok bytes → bytes.length = size a)
    {as : List α} {run : List (List UInt8)} (write : as.mapM c.write = .ok run) :
    run.flatten.length = (as.map size).sum := by
  induction as generalizing run with
  | nil =>
    cases write
    rfl
  | cons a as ih =>
    rw [List.mapM_cons] at write
    obtain ⟨bytes, first, write⟩ := ok_of_bind write
    obtain ⟨run', rest, write⟩ := ok_of_bind write
    cases write
    rw [List.flatten_cons, List.length_append, sized a bytes first, ih rest, List.map_cons, List.sum_cons]

theorem bounded_packed {get : μ → List α} {size : α → Nat} (named : number < 536870912)
    (small : n < 34359738368) (sized : ∀ a bytes, c.write a = .ok bytes → bytes.length = size a)
    (short : ((get w).map size).sum ≤ n) : (packed number c get set).Bounded w (n + 10) := by
  cases empty : (get w).isEmpty with
  | true => exact bounded_none (by simp only [packed, empty, if_true]; rfl)
  | false =>
    intro records write
    simp only [packed, empty] at write
    obtain ⟨run, writes, write⟩ := ok_of_bind write
    cases write
    have front := length_tag_le named .delimited
    rw [← length_run sized writes] at short
    have back := length_delimited_le short small
    simp only [List.flatten_cons, List.flatten_nil, List.append_nil, List.length_append]
    omega

end FieldCodec

namespace MessageCodec

variable {μ : Type} {c : MessageCodec μ} {w : μ}

theorem short_records (short : ∀ f ∈ c.fields, f.Short w) {records : List (List UInt8)}
    (write : c.records w = .ok records) : ∀ record ∈ records, record.length < 4294967296 := by
  obtain ⟨all, writes, write⟩ := ok_of_bind write
  cases write
  intro record member
  obtain ⟨own, member', within⟩ := List.mem_flatten.1 member
  obtain ⟨f, claimed, same⟩ := mem_of_mapM writes own member'
  exact short f claimed own same record within

theorem length_fields_le {n : Nat} {fields : List (FieldCodec μ)} (bounded : ∀ f ∈ fields, f.Bounded w n)
    {all : List (List (List UInt8))} (writes : fields.mapM (·.records w) = .ok all) :
    all.flatten.flatten.length ≤ fields.length * n := by
  induction fields generalizing all with
  | nil =>
    cases writes
    exact Nat.zero_le _
  | cons f fields ih =>
    rw [List.mapM_cons] at writes
    obtain ⟨records, first, writes⟩ := ok_of_bind writes
    obtain ⟨others, rest, writes⟩ := ok_of_bind writes
    cases writes
    have front := bounded f (List.mem_cons_self ..) records first
    have back := ih (fun g member => bounded g (List.mem_cons_of_mem _ member)) rest
    rw [List.flatten_cons, List.flatten_append, List.length_append, List.length_cons, Nat.succ_mul]
    omega

theorem bounded_message {n : Nat} (bounded : ∀ f ∈ c.fields, f.Bounded w n)
    (small : c.fields.length * n < 34359738368) :
    (ValueCodec.message c).Bounded w (c.fields.length * n + 5) := by
  intro bytes write
  obtain ⟨content, whole, framed⟩ := ok_of_bind write
  obtain ⟨records, collected, joined⟩ := ok_of_bind whole
  obtain ⟨all, writes, gathered⟩ := ok_of_bind collected
  cases framed
  cases joined
  cases gathered
  exact length_delimited_le (length_fields_le bounded writes) small

end MessageCodec

end Protogen
