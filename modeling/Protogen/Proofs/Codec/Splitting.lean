import Protogen.Proofs.Codec.Message
import Protogen.Proofs.Wire.Acceptance

set_option autoImplicit false

namespace Protogen

open Wire (Varint)
open Wire.Read (Takes Ensures Confined Pieces)

namespace FieldCodec

variable {μ α β : Type} {get : μ → β}

def Leaves (f : FieldCodec μ) (get : μ → β) : Prop :=
  ∀ tag m depth payload m', Takes (f.read tag m) depth payload m' → get m' = get m

theorem leaves_of_set {f : FieldCodec μ} {c : ValueCodec α} {set : α → μ → μ}
    (sets : ∀ tag m, f.read tag m = do return set (← c.read) m) (kept : ∀ a m, get (set a m) = get m) :
    f.Leaves get := by
  intro tag m depth payload m' takes
  rw [sets] at takes
  obtain ⟨a, r, -, last⟩ := Wire.Read.bind_eq_ok (takes _ (Wire.Reader.at_holding depth payload))
  obtain ⟨rfl, -⟩ := EStateM.Result.ok.inj last
  exact kept a m

theorem leaves_packed {number : Nat} {c : ValueCodec α} {own : μ → List α} {add : α → μ → μ}
    (confined : Confined 1 c.read) (kept : ∀ a m, get (add a m) = get m) :
    (packed number c own add).Leaves get := by
  intro tag m depth payload m' takes
  refine takes.of_ensures (ensures_packed (fun _ m' => get m' = get m) confined (fun _ held => held) ?_
    (n := 0) rfl tag)
  intro _ m₁ held
  exact (confined depth).weaken fun _ a _ => (kept a m₁).trans held

end FieldCodec

namespace MessageCodec

variable {μ : Type} {c : MessageCodec μ} {depth n : Nat} {m m' m'' : μ} {record bytes : List UInt8}
  {records records' : List (List UInt8)}

-- A record is a tag and, behind it, what the field of its number takes, or what is stepped over where no field has
-- the number.
inductive Step (c : MessageCodec μ) (depth : Nat) (m : μ) : List UInt8 → μ → Prop
  | claimed {n : Nat} {front payload : List UInt8} {f : FieldCodec μ} {m' : μ} (number : Varint 0 front n)
      (found : c.fields.find? (·.number == n % 4294967296 / 8) = some f)
      (takes : Takes (f.read (n % 4294967296) m) depth payload m') : Step c depth m (front ++ payload) m'
  | unclaimed {n : Nat} {front payload : List UInt8} (number : Varint 0 front n)
      (missing : c.fields.find? (·.number == n % 4294967296 / 8) = none) : Step c depth m (front ++ payload) m

theorem step_of_takes (fields : c.Local) (takes : Takes (c.readRecord m) depth record m') :
    c.Step depth m record m' := by
  have ensures : Ensures (c.readRecord m) depth (c.Step depth m) := by
    refine (Wire.Read.ensures_tag_of depth).bind ?_
    rintro front _ ⟨n, number, rfl⟩
    refine (confined_afterTag fields m (n % 4294967296) depth).weaken ?_
    rintro payload m' ⟨-, taken⟩
    split at taken
    next f found => exact .claimed number found taken
    next missing =>
      obtain ⟨_, rfl, -⟩ := (Wire.Read.confined_skip _).of_map (f := fun _ => m) taken
      exact .unclaimed number missing
  exact takes.of_ensures ensures

theorem exists_reads_of_pieces (pieces : Pieces c.readRecord depth n m bytes m') :
    ∃ records, records.flatten = bytes ∧ c.Reads depth m records m' := by
  induction pieces with
  | done m => exact ⟨[], rfl, .nil m⟩
  | step left nonempty first rest ih =>
    obtain ⟨records, rfl, reads⟩ := ih
    exact ⟨_ :: records, rfl, .cons nonempty first reads⟩

theorem exists_reads_of_decode (fields : c.Local) {data : ByteArray} (success : c.decode data = .ok m) :
    ∃ records, records.flatten = data.data.toList ∧ c.Reads 0 c.base records m :=
  exists_reads_of_pieces (pieces_of_decode fields success)

theorem decode_of_reads (reads : c.Reads 0 c.base records m) : c.decode ⟨records.flatten.toArray⟩ = .ok m :=
  decode_of_pieces reads.pieces

-- Bytes are read record by record in one way.
theorem Reads.unique (reads : c.Reads depth m records m') (reads' : c.Reads depth m records' m'')
    (same : records.flatten = records'.flatten) : records = records' ∧ m' = m'' := by
  induction reads generalizing records' with
  | nil =>
    cases reads' with
    | nil => exact ⟨rfl, rfl⟩
    | cons nonempty =>
      have lengths := congrArg List.length same
      rw [List.flatten_cons, List.length_append, List.flatten_nil, List.length_nil] at lengths
      omega
  | @cons m m₁ m₂ record records nonempty first rest ih =>
    cases reads' with
    | nil =>
      have lengths := congrArg List.length same
      rw [List.flatten_cons, List.length_append, List.flatten_nil, List.length_nil] at lengths
      omega
    | @cons _ _ _ record' records' nonempty' first' rest' =>
      rw [List.flatten_cons, List.flatten_cons] at same
      -- Both begin at one place, so with the same record.
      obtain ⟨rfl, rfl⟩ := first.unique_front first' (List.prefix_append record records.flatten)
        (same ▸ List.prefix_append record' records'.flatten)
      obtain ⟨rfl, rfl⟩ := ih rest' (List.append_cancel_left same)
      exact ⟨rfl, rfl⟩

theorem exists_reads (each : ∀ record ∈ records, 0 < record.length ∧ ∀ m, ∃ m', Takes (c.readRecord m) depth record m')
    (m : μ) : ∃ m', c.Reads depth m records m' := by
  induction records generalizing m with
  | nil => exact ⟨m, .nil m⟩
  | cons record records ih =>
    obtain ⟨⟨nonempty, takes⟩, each⟩ := List.forall_mem_cons.1 each
    obtain ⟨m₁, first⟩ := takes m
    obtain ⟨m', rest⟩ := ih each m₁
    exact ⟨m', .cons nonempty first rest⟩

end MessageCodec

end Protogen
