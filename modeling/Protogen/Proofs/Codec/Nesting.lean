import Protogen.Proofs.Codec.Framing
import Protogen.Proofs.Codec.Refusal
import Protogen.Proofs.Codec.Resume

set_option autoImplicit false

namespace Protogen

open Wire (Value Content CompleteRecord WireType varintBytes recursionLimit)
open Wire.Read (Takes Fails Pieces)
open FieldCodec (tag)

variable {depth field : Nat} {fields : List Nat}

def nestedGroups : List Nat → List UInt8
  | [] => []
  | field :: fields =>
    varintBytes (tag field .startGroup) ++ (nestedGroups fields ++ varintBytes (tag field .endGroup))

theorem length_nestedGroups_ge (fields : List Nat) : fields.length ≤ (nestedGroups fields).length := by
  induction fields with
  | nil => exact Nat.le_refl 0
  | cons field fields ih =>
    have positive := Wire.length_varintBytes_pos (tag field .startGroup)
    rw [nestedGroups, List.length_append, List.length_append, List.length_cons]
    omega

section Grammar

theorem number_tag (named : field < 536870912) (t : WireType) :
    Wire.Varint 0 (varintBytes (tag field t)) (tag field t) :=
  ValueCodec.number_varintBytes (Nat.lt_trans (FieldCodec.tag_lt named t) (by decide))

theorem tag_word (named : field < 536870912) (t : WireType) : tag field t % 4294967296 = tag field t :=
  Nat.mod_eq_of_lt (FieldCodec.tag_lt named t)

theorem content_end (named : field < 536870912) (levels : Nat) :
    Content levels field (varintBytes (tag field .endGroup)) := by
  refine .stop (number_tag named .endGroup) ?_ ?_
  next => rw [tag_word named, FieldCodec.tag_mod]
  next => rw [tag_word named, FieldCodec.tag_div]

theorem value_group {levels : Nat} {bytes : List UInt8} (content : Content levels field bytes) :
    Value (levels + 1) (tag field .startGroup) bytes := by
  refine .group (FieldCodec.tag_mod field .startGroup) ?_
  rwa [FieldCodec.tag_div]

-- Each group takes a level, and what is in it is one of a level less.
theorem value_nestedGroups (outer : field < 536870912) (named : ∀ n ∈ fields, n < 536870912) :
    Value (fields.length + 1) (tag field .startGroup) (nestedGroups fields ++ varintBytes (tag field .endGroup)) := by
  induction fields generalizing field with
  | nil => exact value_group (content_end outer 0)
  | cons inner fields ih =>
    obtain ⟨inner', named⟩ := List.forall_mem_cons.1 named
    have start := tag_word inner' .startGroup
    have value := ih inner' named
    rw [nestedGroups, List.append_assoc]
    refine value_group (.record (number_tag inner' .startGroup) ?_ ?_ (content_end outer _))
    next =>
      rw [start, FieldCodec.tag_mod]
      decide
    next => rwa [start]

theorem record_nestedGroups (named : ∀ n ∈ field :: fields, n < 536870912) :
    CompleteRecord (field :: fields).length field (nestedGroups (field :: fields)) := by
  obtain ⟨outer, named⟩ := List.forall_mem_cons.1 named
  have start := tag_word outer .startGroup
  have value := value_nestedGroups outer named
  rw [← start] at value
  have record := CompleteRecord.mk (number_tag outer .startGroup) value
  rwa [start, FieldCodec.tag_div] at record

end Grammar

section Limit

-- Two units of fuel lead from one group into the next, up to the one that is too deep.
theorem fails_skipWith {fuel : Nat} (named : ∀ n ∈ fields, n < 536870912) (inside : depth ≤ recursionLimit)
    (past : recursionLimit ≤ depth + fields.length) (enough : 2 * fields.length + 1 ≤ fuel) (more : List UInt8) :
    Fails (Wire.Read.skipWith fuel (tag field .startGroup)) depth (nestedGroups fields ++ more)
      (.recursionLimit recursionLimit) := by
  induction fields generalizing field depth fuel more with
  | nil =>
    obtain ⟨fuel, rfl⟩ : ∃ k, fuel = k + 1 := ⟨fuel - 1, by omega⟩
    rw [Wire.Read.skipWith.eq_def, FieldCodec.tag_mod]
    exact Fails.deep past _
  | cons inner fields ih =>
    obtain ⟨inner', named⟩ := List.forall_mem_cons.1 named
    rw [List.length_cons] at past enough
    obtain ⟨fuel, rfl⟩ : ∃ k, fuel = k + 1 + 1 := ⟨fuel - 2, by omega⟩
    rw [Wire.Read.skipWith.eq_def, FieldCodec.tag_mod]
    rcases Nat.lt_or_ge depth recursionLimit with shallow | deep
    next =>
      have later : Fails (Wire.Read.skipWith fuel (tag inner .startGroup)) (depth + 1)
          (nestedGroups fields ++ (varintBytes (tag inner .endGroup) ++ more)) (.recursionLimit recursionLimit) :=
        ih named shallow (by omega) (by omega) _
      refine Fails.nested shallow ?_
      rw [nestedGroups, List.append_assoc, List.append_assoc, Wire.Read.skipGroup]
      refine .after (Wire.Read.takes_tag (depth + 1) (FieldCodec.tag_lt inner' .startGroup)) ?_
      simp only [FieldCodec.tag_mod, WireType.number, if_false, Nat.reduceEqDiff]
      exact later.bind _
    next => exact Fails.deep deep _

theorem fails_skip (named : ∀ n ∈ fields, n < 536870912) (inside : depth ≤ recursionLimit)
    (past : recursionLimit ≤ depth + fields.length) (more : List UInt8) :
    Fails (Wire.Read.skip (tag field .startGroup)) depth (nestedGroups fields ++ more)
      (.recursionLimit recursionLimit) := by
  intro r here
  have room := here.room
  have long := length_nestedGroups_ge fields
  rw [List.length_append] at room
  exact fails_skipWith named inside past (by omega) more r here

end Limit

namespace FieldCodec

def delimitedRecord (number : Nat) (content : List UInt8) : List UInt8 :=
  varintBytes (tag number .delimited) ++ Wire.Bytes.delimited content

theorem length_delimitedRecord_gt (number : Nat) (content : List UInt8) :
    content.length < (delimitedRecord number content).length := by
  have positive := Wire.length_varintBytes_pos (tag number .delimited)
  rw [delimitedRecord, Wire.Bytes.delimited, List.length_append, List.length_append]
  omega

end FieldCodec

namespace MessageCodec

variable {μ : Type} {c : MessageCodec μ} {m : μ} {e : CodecError}

theorem pieces_nestedGroups (named : ∀ n ∈ fields, n < 536870912) (shallow : depth + fields.length ≤ recursionLimit)
    (unclaimed : ∀ field ∈ fields.head?, c.fields.find? (·.number == field) = none) (m : μ) :
    Pieces c.readRecord depth (nestedGroups fields).length m (nestedGroups fields) m := by
  cases fields with
  | nil => exact .done m
  | cons field fields =>
    have complete := record_nestedGroups named
    have positive := length_nestedGroups_ge (field :: fields)
    exact .single (Nat.lt_of_lt_of_le (Nat.succ_pos _) positive)
      (takes_unknown complete shallow (unclaimed field rfl) m)

theorem fails_nestedGroups (named : ∀ n ∈ field :: fields, n < 536870912) (inside : depth ≤ recursionLimit)
    (past : recursionLimit < depth + (field :: fields).length)
    (unclaimed : c.fields.find? (·.number == field) = none) :
    Fails (c.readRecord m) depth (nestedGroups (field :: fields)) (.recursionLimit recursionLimit) := by
  obtain ⟨outer, named⟩ := List.forall_mem_cons.1 named
  refine .after (Wire.Read.takes_tag depth (FieldCodec.tag_lt outer .startGroup)) ?_
  rw [FieldCodec.tag_div, unclaimed]
  rw [List.length_cons] at past
  exact (fails_skip named inside (by omega) _).bind _

theorem fails_message {bytes record : List UInt8} (shallow : depth < recursionLimit)
    (short : (bytes ++ record).length < 4294967296)
    (pieces : Pieces c.readRecord (depth + 1) bytes.length c.base bytes m) (nonempty : 0 < record.length)
    (fails : Fails (c.readRecord m) (depth + 1) record e) :
    Fails (ValueCodec.message c).read depth (Wire.Bytes.delimited (bytes ++ record)) e :=
  .length_bind short (.nested shallow (.within pieces nonempty fails))

theorem fails_message_deep {bytes : List UInt8} (deep : recursionLimit ≤ depth) (short : bytes.length < 4294967296) :
    Fails (ValueCodec.message c).read depth (Wire.Bytes.delimited bytes) (.recursionLimit recursionLimit) :=
  .length_bind short (.deep deep bytes)

end MessageCodec

end Protogen
