import Protogen.Proofs.Codec.Field
import Protogen.Proofs.Shop.Children

set_option autoImplicit false

namespace Protogen

open Wire (Read Reader Kind)
open Wire.Read (Client Traced)

namespace WellKnown

theorem Timestamp.client (L : LongForm Int64) : (codec L).Client := by
  simp only [MessageCodec.Client, codec, List.forall_mem_cons]
  refine ⟨FieldCodec.client_required ?_, FieldCodec.client_required ?_, by simp⟩
  · exact ValueCodec.client_via _ _ (.scalar .int64)
  · exact .scalar .int32

namespace Wrapper

variable {α : Type} {base : α} {isDefault : α → Bool} {c : ValueCodec α}

theorem client_codec (client : Client c.read) : (codec base isDefault c).Client := by
  simp only [MessageCodec.Client, codec, List.forall_mem_cons]
  exact ⟨FieldCodec.client_required client, by simp⟩

theorem client_valueCodec (client : Client c.read) : Client (valueCodec (codec base isDefault c)).read :=
  ValueCodec.client_via _ _ (MessageCodec.client_message (client_codec client))

end Wrapper

end WellKnown

namespace Shop

open WellKnown (Timestamp Wrapper)

theorem StockEntry.client : StockEntry.codec.Client := by
  simp only [MessageCodec.Client, codec, List.forall_mem_cons]
  exact ⟨FieldCodec.client_required (.scalar .string), FieldCodec.client_required (.scalar .int32), by simp⟩

theorem Part.client (levels : Nat) : (codecTo levels).Client := by
  induction levels with
  | zero =>
    simp only [MessageCodec.Client, fields_codecTo, List.forall_mem_cons]
    exact ⟨FieldCodec.client_required (.scalar .string),
      FieldCodec.client_optional (.message fun _ => .throw _), by simp⟩
  | succ levels ih =>
    simp only [MessageCodec.Client, fields_codecTo, List.forall_mem_cons]
    exact ⟨FieldCodec.client_required (.scalar .string),
      FieldCodec.client_optional (MessageCodec.client_message ih), by simp⟩

theorem Widget.client (F : Form) : (codec F).Client := by
  simp only [MessageCodec.Client, codec, fieldCodecs, List.forall_mem_cons]
  refine ⟨?id, ?weight, ?sizes, ?stock, ?created, ?note, ?name, ?count, ?color, ?parts, ?featured, ?blob,
    ?serial, ?ratio, ?quota, ?displayName, by simp⟩
  case id | displayName => exact FieldCodec.client_required (.scalar .string)
  case weight => exact FieldCodec.client_required (ValueCodec.client_via _ _ (.scalar .int64))
  case sizes => exact FieldCodec.client_packed (.scalar .int32)
  case stock => exact FieldCodec.client_repeated (MessageCodec.client_message StockEntry.client)
  case created =>
    exact FieldCodec.client_optional
      (ValueCodec.client_via _ _ (MessageCodec.client_message (Timestamp.client F.signed)))
  case note => exact FieldCodec.client_optional (Wrapper.client_valueCodec (.scalar .string))
  case name => exact FieldCodec.client_optional (.scalar .string)
  case count => exact FieldCodec.client_optional (.scalar .int32)
  case color => exact FieldCodec.client_required (ValueCodec.client_via _ _ (.scalar .int32))
  case parts => exact FieldCodec.client_repeated (MessageCodec.client_message (Part.client Wire.recursionLimit))
  case featured => exact FieldCodec.client_optional (.scalar .bool)
  case blob => exact FieldCodec.client_required (.scalar .bytes)
  case serial => exact FieldCodec.client_required (ValueCodec.client_via _ _ (.scalar .uint64))
  case ratio => exact FieldCodec.client_required (.scalar .double)
  case quota =>
    exact FieldCodec.client_optional (Wrapper.client_valueCodec (ValueCodec.client_via _ _ (.scalar .int64)))

theorem SampleMessage.client (F : Form) (k : SampleMessage) : (k.codec F).Client := by
  cases k with
  | widget => exact Widget.client F
  | part => exact Part.client Wire.recursionLimit
  | stockEntry => exact StockEntry.client
  | timestamp => exact Timestamp.client F.signed
  | stringValue => exact Wrapper.client_codec (.scalar .string)
  | int64Value => exact Wrapper.client_codec (ValueCodec.client_via _ _ (.scalar .int64))
  | request =>
    simp only [MessageCodec.Client, codec, WidgetsRequest.codec, List.forall_mem_cons]
    exact ⟨FieldCodec.client_repeated (.scalar .string), by simp⟩
  | response =>
    simp only [MessageCodec.Client, codec, WidgetsResponse.codec, List.forall_mem_cons]
    exact ⟨FieldCodec.client_repeated (MessageCodec.client_message (Widget.client F)), by simp⟩

/-- An operation on a reader. A message may be of any type whose fields are read by what a reader offers. -/
inductive Operation : Type 1 where
  | varint
  | scalar (k : Kind)
  | length
  | endOf (announced : Option Nat)
  | skip (tag : Nat)
  | message {μ : Type} (c : MessageCodec μ) (client : c.Client)

def SampleMessage.operation (F : Form) (k : SampleMessage) : Operation :=
  .message (k.codec F) (k.client F)

namespace Operation

def read : Operation → Read Unit
  | .varint => do let _ ← Read.varint
  | .scalar k => do let _ ← k.read
  | .length => do let _ ← Read.length
  | .endOf announced => do let _ ← Read.endOf announced
  | .skip tag => Read.skip tag
  | .message c _ => do let _ ← Read.message c.read

def run (r : Reader) (ops : List Operation) : Reader :=
  ops.foldl (fun r op => op.read.after r) r

theorem client_read (op : Operation) : Client op.read := by
  cases op with
  | varint => exact Client.varint.map _
  | scalar k => exact (Client.scalar k).map _
  | length => exact Client.length.map _
  | endOf announced => exact (Client.endOf announced).map _
  | skip tag => exact .skip tag
  | message c client => exact (MessageCodec.client_message client).map _

theorem onward_run {r : Reader} (inside : r.index ≤ r.data.size) (shallow : r.depth ≤ Wire.recursionLimit)
    (ops : List Operation) : r.Onward (run r ops) := by
  induction ops generalizing r with
  | nil => exact .refl inside
  | cons op ops ih =>
    -- A failed operation, too, leaves a reader from which the next one may begin.
    have first := (op.client_read.safe inside shallow).1
    exact first.trans (ih (first.data ▸ first.inside) (first.level ▸ shallow))

/-- Whatever operations come before, and whether they fail, an operation leaves the reader in its buffer, no further
back and as deep as it was. The steps that it takes are all taken inside the buffer and above the limit of nesting, and
in a buffer of less than 2^63 bytes none of them asks for more than a position can say. -/
theorem reader_kept (start : Reader) (inside : start.index ≤ start.data.size)
    (shallow : start.depth ≤ Wire.recursionLimit) (before : List Operation) (op : Operation) :
    start.Onward (run start before) ∧ (run start before).Onward (run start (before ++ [op])) ∧
      ∃ steps, Traced op.read steps ∧ ∀ step ∈ steps (run start before), (run start before).Within step.reader ∧
        (start.data.size < 9223372036854775808 → step.Fits) := by
  have past := onward_run inside shallow before
  have last : run start (before ++ [op]) = op.read.after (run start before) := List.foldl_append
  obtain ⟨onward, safe⟩ := op.client_read.safe (past.data ▸ past.inside) (past.level ▸ shallow)
  rw [past.data] at safe
  rw [last]
  exact ⟨past, onward, safe⟩

def cutShort : Reader :=
  .ofBytes ⟨#[0x09, 0x04, 0x12, 0x02, 0x0A, 0x05]⟩

set_option maxRecDepth 4000 in
theorem reader_kept_cutShort :
    cutShort.index ≤ cutShort.data.size ∧ cutShort.depth ≤ Wire.recursionLimit ∧
      (run cutShort [.scalar .string, .endOf (some 18446744073709551615)]).Onward
        (run cutShort
          [.scalar .string, .endOf (some 18446744073709551615), SampleMessage.part.operation .plain]) ∧
      run cutShort [.scalar .string, .endOf (some 18446744073709551615), SampleMessage.part.operation .plain] =
        { cutShort with index := 6 } := by
  have inside : cutShort.index ≤ cutShort.data.size := by decide
  have shallow : cutShort.depth ≤ Wire.recursionLimit := by decide
  have kept := reader_kept cutShort inside shallow [.scalar .string, .endOf (some 18446744073709551615)]
    (SampleMessage.part.operation .plain)
  exact ⟨inside, shallow, kept.2.1, by cbv⟩

end Operation

end Shop

end Protogen
