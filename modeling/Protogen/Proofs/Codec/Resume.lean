import Protogen.Proofs.Codec.Message
import Protogen.Proofs.Wire.Grammar
import Protogen.Proofs.Wire.Placeless

set_option autoImplicit false

namespace Protogen

open Wire (Read Reader)
open Wire.Read (Takes Confined Pieces Placeless Alike)

theorem ValueCodec.placeless_via {α β : Type} {c : ValueCodec β} (toWire : α → Except CodecError β)
    (ofWire : β → Except CodecError α) (placeless : Placeless c.read) :
    Placeless (c.via toWire ofWire).read := by
  refine placeless.bind fun b => ?_
  split
  next => exact .pure _
  next => exact .throw _

namespace FieldCodec

variable {μ α : Type} {number : Nat} {c : ValueCodec α}

def Placeless (f : FieldCodec μ) : Prop :=
  ∀ tag m, Wire.Read.Placeless (f.read tag m)

theorem placeless_required {isDefault : α → Bool} {get : μ → α} {set : α → μ → μ}
    (placeless : Wire.Read.Placeless c.read) : (required number c isDefault get set).Placeless :=
  fun _ m => placeless.map (set · m)

theorem placeless_optional {get : μ → Option α} {set : α → μ → μ}
    (placeless : Wire.Read.Placeless c.read) : (optional number c get set).Placeless :=
  fun _ m => placeless.map (set · m)

theorem placeless_repeated {get : μ → List α} {add : α → μ → μ}
    (placeless : Wire.Read.Placeless c.read) : (repeated number c get add).Placeless :=
  fun _ m => placeless.map (add · m)

theorem placeless_packed {get : μ → List α} {add : α → μ → μ}
    (placeless : Wire.Read.Placeless c.read) : (packed number c get add).Placeless := by
  intro tag m
  by_cases run : tag % 8 = Wire.WireType.delimited.number
  next =>
    rw [packed_read_run run]
    refine Wire.Read.placeless_length.bind fun n => ?_
    exact Wire.Read.placeless_within (fun m => placeless.map (add · m)) n m
  next =>
    rw [packed_read_single run]
    exact placeless.map (add · m)

end FieldCodec

namespace MessageCodec

variable {μ : Type} {c : MessageCodec μ} {m m' : μ}

def Placeless (c : MessageCodec μ) : Prop :=
  ∀ f ∈ c.fields, f.Placeless

theorem placeless_readRecord (fields : c.Placeless) (m : μ) : Wire.Read.Placeless (c.readRecord m) := by
  refine Wire.Read.placeless_tag.bind fun tag => ?_
  split
  next f found => exact fields f (List.mem_of_find?_eq_some found) tag m
  next => exact (Wire.Read.placeless_skip tag).map fun _ => m

theorem placeless_message (fields : c.Placeless) : Wire.Read.Placeless (ValueCodec.message c).read :=
  Wire.Read.placeless_message fun n => Wire.Read.placeless_within (placeless_readRecord fields) n c.base

theorem pieces_shallower {depth depth' n : Nat} {bytes : List UInt8} (fields : c.Placeless)
    (pieces : Pieces c.readRecord depth n m bytes m') (shallower : depth' ≤ depth) :
    Pieces c.readRecord depth' n m bytes m' := by
  induction pieces with
  | done => exact .done _
  | step left nonempty first rest ih =>
    exact .step left nonempty ((placeless_readRecord fields _).takes_shallower first shallower) ih

def resume (c : MessageCodec μ) (m : μ) (bytes : List UInt8) : Except CodecError μ :=
  Wire.Read.outcome (Read.whileBefore bytes.length c.readRecord bytes.length m (Reader.holding 0 bytes))

theorem decode_eq_resume (c : MessageCodec μ) (data : ByteArray) :
    c.decode data = c.resume c.base data.data.toList := by
  have size : data.data.toList.length = data.size := by simp
  rw [resume, size]
  rfl

theorem resume_append {bytes : List UInt8} (locals : c.Local) (fields : c.Placeless)
    (pieces : Pieces c.readRecord 0 bytes.length m bytes m') (more : List UInt8) :
    c.resume m (bytes ++ more) = c.resume m' more := by
  have here := Reader.at_holding 0 (bytes ++ more)
  have start : (Reader.holding 0 (bytes ++ more)).index = 0 := rfl
  have size : (Reader.holding 0 (bytes ++ more)).data.size = (bytes ++ more).length := by
    simp [Reader.holding, ByteArray.size]
  have total : (bytes ++ more).length = bytes.length + more.length := List.length_append
  obtain ⟨fuel, enough, same⟩ := pieces.whileBefore_append rfl here.left
    (by omega : (Reader.holding 0 (bytes ++ more)).index + bytes.length ≤ (bytes ++ more).length) (Nat.le_refl _)
  rw [start, Nat.sub_zero] at same
  -- Where the pieces end, nothing but the other bytes is ahead, and there is fuel left for them.
  have there := here.right
  have abreast := Reader.Abreast.of_at there (by rw [Reader.advance_data, Reader.advance_index]; omega)
  have fewer : (bytes ++ more).length - ((Reader.holding 0 (bytes ++ more)).advance bytes.length).index =
      more.length := by
    rw [Reader.advance_index]
    omega
  have alike := Wire.Read.alike_whileBefore (placeless_readRecord fields) more.length m' abreast
    (fewer.trans (Nat.sub_zero _).symm)
  rw [resume, same, Wire.Read.whileBefore_enough (confined_readRecord locals) there.inside (by omega) fewer.le]
  exact Alike.outcome_eq here.level alike

theorem decode_append {a b : ByteArray} (locals : c.Local) (fields : c.Placeless)
    (accepted : c.decode a = .ok m) : c.decode (a ++ b) = c.resume m b.data.toList := by
  have pieces := pieces_of_decode locals accepted
  have size : a.data.toList.length = a.size := by simp
  rw [← size] at pieces
  rw [decode_eq_resume, ByteArray.data_append, Array.toList_append]
  exact resume_append locals fields pieces _

theorem takes_unknown {levels depth field : Nat} {bytes : List UInt8}
    (complete : Wire.CompleteRecord levels field bytes) (shallow : depth + levels ≤ Wire.recursionLimit)
    (unknown : c.fields.find? (·.number == field) = none) (m : μ) :
    Takes (c.readRecord m) depth bytes m := by
  cases complete with
  | mk number value =>
    refine (Wire.Read.takes_tag_of number).bind ?_
    rw [unknown]
    exact (Wire.Read.takes_skip value shallow).map fun _ => m

-- Whether such a record stands between two runs of bytes or not, they decode alike.
theorem decode_unclaimed {a u : ByteArray} {field : Nat} (locals : c.Local) (fields : c.Placeless)
    (accepted : c.decode a = .ok m) (complete : Wire.CompleteRecord Wire.recursionLimit field u.data.toList)
    (unknown : c.fields.find? (·.number == field) = none) (b : ByteArray) :
    c.decode (a ++ u ++ b) = c.decode (a ++ b) := by
  have first : Takes (c.readRecord m) 0 u.data.toList m :=
    takes_unknown complete (Nat.zero_add _).le unknown m
  have nonempty := (first.of_ensures (confined_readRecord locals m 0)).1
  calc c.decode (a ++ u ++ b) = c.resume m (u.data.toList ++ b.data.toList) := by
        rw [ByteArray.append_assoc, decode_append locals fields accepted, ByteArray.data_append,
          Array.toList_append]
    _ = c.resume m b.data.toList := resume_append locals fields (.single nonempty first) _
    _ = c.decode (a ++ b) := (decode_append locals fields accepted).symm

end MessageCodec

end Protogen
