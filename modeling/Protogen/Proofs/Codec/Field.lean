import Protogen.Codec.Message
import Protogen.Proofs.Wire.Pieces
import Protogen.Proofs.Wire.Skipping
import Protogen.Proofs.Wire.Steps

set_option autoImplicit false

namespace Protogen

namespace ValueCodec

open Number (Double)
open Wire (Read)
open Wire.Read (Takes Ensures Confined)

variable {α β : Type} {depth : Nat}

/-- The value is written, and what is written is read back as a value, unless it is too long for its
length to be read back. -/
def Carries (c : ValueCodec α) (depth : Nat) (a b : α) : Prop :=
  ∃ bytes, c.write a = .ok bytes ∧
    (bytes.length < 4294967296 → Takes c.read depth bytes b)

theorem carries_string (depth : Nat) (s : String) : string.Carries depth s s := by
  refine ⟨_, rfl, fun short => Wire.Read.takes_string ?_⟩
  simp only [Wire.Bytes.string, Wire.Bytes.bytes, Wire.Bytes.delimited, List.length_append] at short
  change s.toUTF8.data.toList.length < 4294967296
  omega

theorem carries_bytes (depth : Nat) (b : ByteArray) : bytes.Carries depth b b := by
  refine ⟨_, rfl, fun short => Wire.Read.takes_bytes ?_⟩
  simp only [Wire.Bytes.bytes, Wire.Bytes.delimited, List.length_append] at short
  change b.data.toList.length < 4294967296
  omega

theorem carries_int32 (depth : Nat) (i : Int32) : int32.Carries depth i i :=
  ⟨_, rfl, fun _ => Wire.Read.takes_int32 depth i⟩

theorem carries_int64 (depth : Nat) (i : Int64) : int64.Carries depth i i :=
  ⟨_, rfl, fun _ => Wire.Read.takes_int64 depth i⟩

theorem carries_uint64 (depth : Nat) (n : UInt64) : uint64.Carries depth n n :=
  ⟨_, rfl, fun _ => Wire.Read.takes_uint64 depth n⟩

theorem carries_bool (depth : Nat) (b : Bool) : bool.Carries depth b b :=
  ⟨_, rfl, fun _ => Wire.Read.takes_bool depth b⟩

theorem carries_double (depth : Nat) (x : Double) : double.Carries depth x x :=
  ⟨_, rfl, fun _ => Wire.Read.takes_double depth x⟩

theorem Carries.via {c : ValueCodec β} {toWire : α → Except CodecError β}
    {ofWire : β → Except CodecError α} {a b : α} {x y : β} (carries : c.Carries depth x y)
    (out : toWire a = .ok x) (back : ofWire y = .ok b) :
    (c.via toWire ofWire).Carries depth a b := by
  obtain ⟨bytes, write, takes⟩ := carries
  refine ⟨bytes, ?_, fun short => (takes short).followed ?_⟩
  · simp only [ValueCodec.via, out]
    exact write
  · rw [back]
    exact Takes.pure depth b

theorem confined_via {c : ValueCodec β} {least : Nat} (toWire : α → Except CodecError β)
    (ofWire : β → Except CodecError α) (confined : Confined least c.read) :
    Confined least (c.via toWire ofWire).read := by
  refine confined.followed fun b => ?_
  split
  · exact Confined.pure _
  · exact Confined.throw 0 _

theorem ensures_via {c : ValueCodec β} {post : List UInt8 → β → Prop} {post' : List UInt8 → α → Prop}
    (toWire : α → Except CodecError β) (ofWire : β → Except CodecError α)
    (ensures : Ensures c.read depth post)
    (converts : ∀ bytes b a, post bytes b → ofWire b = .ok a → post' bytes a) :
    Ensures (c.via toWire ofWire).read depth post' := by
  refine ensures.bind fun bytes b holds => ?_
  split
  next a back =>
    refine Ensures.pure ?_
    rw [List.append_nil]
    exact converts bytes b a holds back
  next => exact Ensures.throw _

end ValueCodec

namespace FieldCodec

open Wire (Read WireType varintBytes)
open Wire.Read (Takes Ensures Confined Pieces)

variable {μ α : Type} {depth : Nat}

-- Every record of the field, whatever its tag, is read alike wherever it stands.
def Local (f : FieldCodec μ) : Prop :=
  ∀ tag m, Confined 0 (f.read tag m)

/-- Reading the record, tag and all, turns one message into the other. -/
def TakesRecord (f : FieldCodec μ) (depth : Nat) (m : μ) (record : List UInt8) (m' : μ) : Prop :=
  ∃ (wireType : WireType) (payload : List UInt8),
    record = varintBytes (tag f.number wireType) ++ payload ∧
      Takes (f.read (tag f.number wireType) m) depth payload m'

inductive TakesRecords (f : FieldCodec μ) (depth : Nat) : μ → List (List UInt8) → μ → Prop
  | nil (m : μ) : TakesRecords f depth m [] m
  | cons {m m₁ m₂ : μ} {record : List UInt8} {records : List (List UInt8)}
      (first : f.TakesRecord depth m record m₁) (rest : TakesRecords f depth m₁ records m₂) :
      TakesRecords f depth m (record :: records) m₂

-- The field of `w` is written, and what is written turns `m` into `m'` when it is read, unless a record is too long
-- for its length to be read back.
def Delivers (f : FieldCodec μ) (depth : Nat) (w m m' : μ) : Prop :=
  ∃ records, f.records w = .ok records ∧
    ((∀ record ∈ records, record.length < 4294967296) → f.TakesRecords depth m records m')

theorem wireType_lt (t : WireType) : t.number < 8 := by
  cases t <;> decide

theorem tag_mod (number : Nat) (t : WireType) : tag number t % 8 = t.number := by
  have small := wireType_lt t
  rw [tag]
  omega

theorem tag_div (number : Nat) (t : WireType) : tag number t / 8 = number := by
  have small := wireType_lt t
  rw [tag]
  omega

theorem tag_lt {number : Nat} (small : number < 536870912) (t : WireType) : tag number t < 4294967296 := by
  have := wireType_lt t
  rw [tag]
  omega

theorem record_ok {c : ValueCodec α} {a : α} {bytes : List UInt8} (number : Nat)
    (write : c.write a = .ok bytes) :
    record number c a = .ok (varintBytes (tag number c.wireType) ++ bytes) := by
  rw [record, write]
  rfl

theorem delivers_none {f : FieldCodec μ} {w m : μ} (none : f.records w = .ok []) :
    f.Delivers depth w m m :=
  ⟨[], none, fun _ => .nil m⟩

theorem delivers_one {f : FieldCodec μ} {c : ValueCodec α} {set : α → μ → μ} {w m : μ} {a b : α}
    (one : f.records w = (do return [← record f.number c a]))
    (reads : ∀ tag m, f.read tag m = (do return set (← c.read) m))
    (carries : c.Carries depth a b) : f.Delivers depth w m (set b m) := by
  obtain ⟨bytes, write, takes⟩ := carries
  refine ⟨[varintBytes (tag f.number c.wireType) ++ bytes], ?_, fun short => ?_⟩
  · rw [one, record_ok f.number write]
    rfl
  · have bound := short _ (List.mem_singleton_self _)
    rw [List.length_append] at bound
    refine .cons ⟨c.wireType, bytes, rfl, ?_⟩ (.nil _)
    rw [reads]
    exact (takes (by omega)).map (set · m)

section Single

variable {number : Nat} {c : ValueCodec α} {set : α → μ → μ} {w m m' : μ}

theorem delivers_required {isDefault : α → Bool} {get : μ → α}
    (elided : isDefault (get w) = true → m' = m)
    (written : isDefault (get w) = false → ∃ b, c.Carries depth (get w) b ∧ m' = set b m) :
    (required number c isDefault get set).Delivers depth w m m' := by
  cases default : isDefault (get w) with
  | true =>
    rw [elided default]
    exact delivers_none (by simp only [required, default, if_true]; rfl)
  | false =>
    obtain ⟨b, carries, rfl⟩ := written default
    refine delivers_one (a := get w) ?_ (fun _ _ => rfl) carries
    simp only [required, default]
    rfl

theorem delivers_value {isDefault : α → Bool} {get : μ → α}
    (elided : isDefault (get w) = true → set (get w) m = m)
    (carries : c.Carries depth (get w) (get w)) :
    (required number c isDefault get set).Delivers depth w m (set (get w) m) :=
  delivers_required elided fun _ => ⟨get w, carries, rfl⟩

theorem delivers_optional {get : μ → Option α} (absent : get w = none → m' = m)
    (present : ∀ a, get w = some a → ∃ b, c.Carries depth a b ∧ m' = set b m) :
    (optional number c get set).Delivers depth w m m' := by
  cases value : get w with
  | none =>
    rw [absent value]
    exact delivers_none (by simp only [optional, value])
  | some a =>
    obtain ⟨b, carries, rfl⟩ := present a value
    refine delivers_one (a := a) ?_ (fun _ _ => rfl) carries
    simp only [optional, value]

theorem delivers_unless {isDefault : α → Bool} {get : μ → α} (kept : set (get m) m = m)
    (carries : isDefault (get w) = false → c.Carries depth (get w) (get w)) :
    (required number c isDefault get set).Delivers depth w m
      (set (if isDefault (get w) then get m else get w) m) := by
  refine delivers_required (fun default => ?_) fun value => ⟨get w, carries value, ?_⟩
  · rw [default, if_pos rfl, kept]
  · rw [value, if_neg Bool.false_ne_true]

theorem delivers_member {get : μ → Option α} (set : Option α → μ → μ) (kept : set (get m) m = m)
    (carries : ∀ a, get w = some a → c.Carries depth a a) :
    (optional number c get fun a m => set (some a) m).Delivers depth w m
      (set ((get w).or (get m)) m) := by
  refine delivers_optional (fun absent => ?_) fun a present => ⟨a, carries a present, ?_⟩
  · rw [absent, Option.none_or, kept]
  · rw [present, Option.some_or]

theorem local_required {isDefault : α → Bool} {get : μ → α} (confined : Confined 1 c.read) :
    (required number c isDefault get set).Local :=
  fun _ m => (confined.map (set · m)).weaken (Nat.zero_le 1)

theorem local_optional {get : μ → Option α} (confined : Confined 1 c.read) :
    (optional number c get set).Local :=
  fun _ m => (confined.map (set · m)).weaken (Nat.zero_le 1)

end Single

section Many

variable {number : Nat} {c : ValueCodec α} {get : μ → List α} {add : α → μ → μ} {w m : μ}

theorem takesRecords_repeated {as : List α} (carries : ∀ a ∈ as, c.Carries depth a a) :
    ∃ records, as.mapM (record number c) = .ok records ∧
      ((∀ record ∈ records, record.length < 4294967296) → ∀ m,
        (repeated number c get add).TakesRecords depth m records (as.foldl (fun m a => add a m) m)) := by
  induction as with
  | nil => exact ⟨[], rfl, fun _ m => .nil m⟩
  | cons a as ih =>
    obtain ⟨bytes, write, takes⟩ := carries a (by simp)
    obtain ⟨records, writes, rest⟩ := ih fun a member => carries a (by simp [member])
    refine ⟨(varintBytes (tag number c.wireType) ++ bytes) :: records, ?_, fun short m => ?_⟩
    · rw [List.mapM_cons, record_ok number write, writes]
      rfl
    · have bound := short _ (List.mem_cons_self ..)
      rw [List.length_append] at bound
      have first := (takes (by omega)).map (add · m)
      exact .cons ⟨c.wireType, bytes, rfl, first⟩
        (rest (fun record member => short record (List.mem_cons_of_mem _ member)) _)

theorem delivers_repeated (carries : ∀ a ∈ get w, c.Carries depth a a) :
    (repeated number c get add).Delivers depth w m ((get w).foldl (fun m a => add a m) m) := by
  obtain ⟨records, writes, takes⟩ := takesRecords_repeated carries
  exact ⟨records, writes, fun short => takes short m⟩

theorem local_repeated (confined : Confined 1 c.read) : (repeated number c get add).Local :=
  fun _ m => (confined.map (add · m)).weaken (Nat.zero_le 1)

-- A run is read like a message whose end is known.
theorem packed_read_run {tag : Nat} (run : tag % 8 = WireType.delimited.number) (m : μ) :
    (packed number c get add).read tag m =
      Read.length >>= fun n => Read.within n m fun m => do return add (← c.read) m := by
  simp only [packed, run, if_true]
  -- The check that a message makes has been made with the length.
  refine Wire.Read.length_bind_congr fun n r room => ?_
  refine Eq.trans ?_ (Wire.Read.bind_of_ok (Wire.Read.endOf_ok room) _).symm
  rw [Nat.add_comm]
  rfl

theorem packed_read_single {tag : Nat} (single : tag % 8 ≠ WireType.delimited.number) (m : μ) :
    (packed number c get add).read tag m = (do return add (← c.read) m) := by
  simp only [packed, single, if_false]

theorem local_packed (confined : Confined 1 c.read) : (packed number c get add).Local := by
  intro tag m
  by_cases run : tag % 8 = WireType.delimited.number
  · rw [packed_read_run run]
    refine (Wire.Read.confined_length_bind fun n => ?_).weaken (Nat.zero_le 1)
    exact Wire.Read.confined_within (fun m => confined.map (add · m)) n m
  · rw [packed_read_single run]
    exact (confined.map (add · m)).weaken (Nat.zero_le 1)

theorem ensures_packed (holds : Nat → μ → Prop) {n : Nat} (confined : Confined 1 c.read)
    (more : ∀ {n n' m}, n ≤ n' → holds n m → holds n' m)
    (keeps : ∀ n m, holds n m → Ensures c.read depth fun bytes a => holds (n + bytes.length) (add a m))
    (start : holds n m) (tag : Nat) :
    Ensures ((packed number c get add).read tag m) depth fun bytes m' => holds (n + bytes.length) m' := by
  have single (n : Nat) (m : μ) (held : holds n m) :
      Ensures (do return add (← c.read) m) depth fun bytes m' => holds (n + bytes.length) m' :=
    (keeps n m held).map (add · m) fun _ _ held => held
  by_cases run : tag % 8 = WireType.delimited.number
  · rw [packed_read_run run]
    refine (Wire.Read.ensures_length depth).bind fun front stop _ => ?_
    refine (Wire.Read.ensures_within (fun m => confined.map (add · m)) depth stop m).weaken ?_
    intro bytes m' pieces
    refine more ?_ (pieces.invariant single start)
    rw [List.length_append]
    omega
  · rw [packed_read_single run]
    exact single n m start

theorem pieces_run (add : α → μ → μ) (confined : Confined 1 c.read) {as : List α}
    (carries : ∀ a ∈ as, c.Carries depth a a) :
    ∃ run, as.mapM c.write = .ok run ∧ (run.flatten.length < 4294967296 → ∀ m,
      Pieces (fun m => do return add (← c.read) m) depth run.flatten.length m run.flatten
        (as.foldl (fun m a => add a m) m)) := by
  induction as with
  | nil => exact ⟨[], rfl, fun _ m => .done m⟩
  | cons a as ih =>
    obtain ⟨bytes, write, takes⟩ := carries a (by simp)
    obtain ⟨run, writes, rest⟩ := ih fun a member => carries a (by simp [member])
    refine ⟨bytes :: run, ?_, fun short m => ?_⟩
    · rw [List.mapM_cons, write, writes]
      rfl
    · rw [List.flatten_cons, List.length_append] at short ⊢
      have first := takes (by omega)
      have nonempty := (first.of_ensures (confined depth)).1
      exact (Pieces.single nonempty (first.map (add · m))).append rfl (rest (by omega) _)

theorem delivers_packed (confined : Confined 1 c.read) (carries : ∀ a ∈ get w, c.Carries depth a a) :
    (packed number c get add).Delivers depth w m ((get w).foldl (fun m a => add a m) m) := by
  cases empty : (get w).isEmpty with
  | true =>
    rw [List.isEmpty_iff.1 empty]
    exact delivers_none (by simp only [packed, empty, if_true]; rfl)
  | false =>
    obtain ⟨run, writes, pieces⟩ := pieces_run add confined carries
    refine ⟨[varintBytes (tag number .delimited) ++ Wire.Bytes.delimited run.flatten], ?_, fun short => ?_⟩
    · simp only [packed, empty, writes]
      rfl
    · have bound := short _ (List.mem_singleton_self _)
      rw [Wire.Bytes.delimited, List.length_append, List.length_append] at bound
      refine .cons ⟨.delimited, _, rfl, ?_⟩ (.nil _)
      rw [packed_read_run (tag_mod _ .delimited)]
      exact Wire.Read.takes_length_bind (by omega) (Nat.le_refl _)
        (pieces (by omega) m).takes_within

end Many

end FieldCodec

-- Codecs that keep to the operations of a reader. One that is put together from others does if these do.

theorem ValueCodec.client_via {α β : Type} {c : ValueCodec β} (toWire : α → Except CodecError β)
    (ofWire : β → Except CodecError α) (client : Wire.Read.Client c.read) :
    Wire.Read.Client (c.via toWire ofWire).read := by
  refine client.bind fun b => ?_
  split
  next => exact .pure _
  next => exact .throw _

namespace FieldCodec

variable {μ α : Type} {number : Nat} {c : ValueCodec α}

def Client (f : FieldCodec μ) : Prop :=
  ∀ tag m, Wire.Read.Client (f.read tag m)

theorem client_required {isDefault : α → Bool} {get : μ → α} {set : α → μ → μ}
    (client : Wire.Read.Client c.read) : (required number c isDefault get set).Client :=
  fun _ m => client.map (set · m)

theorem client_optional {get : μ → Option α} {set : α → μ → μ} (client : Wire.Read.Client c.read) :
    (optional number c get set).Client :=
  fun _ m => client.map (set · m)

theorem client_repeated {get : μ → List α} {add : α → μ → μ} (client : Wire.Read.Client c.read) :
    (repeated number c get add).Client :=
  fun _ m => client.map (add · m)

theorem client_packed {get : μ → List α} {add : α → μ → μ} (client : Wire.Read.Client c.read) :
    (packed number c get add).Client := by
  intro tag m
  have each (m : μ) : Wire.Read.Client (do return add (← c.read) m) := client.map (add · m)
  simp only [packed]
  split
  next =>
    -- The position behind the length is looked up to add the length to it: the two are one operation.
    have run := Wire.Read.Client.extent.bind fun stop => Wire.Read.Client.repeatTo each stop m
    simpa only [bind_assoc, pure_bind] using run
  next => exact each m

end FieldCodec

namespace MessageCodec

variable {μ : Type} {c : MessageCodec μ}

def Client (c : MessageCodec μ) : Prop :=
  ∀ f ∈ c.fields, f.Client

theorem client_readRecord (fields : c.Client) (m : μ) : Wire.Read.Client (c.readRecord m) := by
  refine (Wire.Read.Client.varint.map _).bind fun tag => ?_
  split
  next f found => exact fields f (List.mem_of_find?_eq_some found) tag m
  next => exact (Wire.Read.Client.skip tag).map fun _ => m

theorem client_read (fields : c.Client) (length : Option Nat) : Wire.Read.Client (c.read length) :=
  (Wire.Read.Client.endOf length).bind fun stop => .repeatTo (client_readRecord fields) stop c.base

theorem client_message (fields : c.Client) : Wire.Read.Client (ValueCodec.message c).read :=
  .message (client_read fields)

end MessageCodec

end Protogen
