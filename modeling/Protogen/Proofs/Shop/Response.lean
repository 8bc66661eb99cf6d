import Protogen.Proofs.Shop.Stability
import Protogen.Proofs.Shop.Unknown

set_option autoImplicit false

namespace Protogen

open Wire (Read varintBytes)
open Wire.Read (Takes Confined Pieces)

namespace MessageCodec

variable {μ α : Type} {v : ValueCodec α} {get : μ → List α} {mk : List α → μ} {m : μ}

def listOf (v : ValueCodec α) (get : μ → List α) (mk : List α → μ) : MessageCodec μ :=
  ⟨mk [], [.repeated 1 v get fun a m => mk (get m ++ [a])]⟩

theorem numbered_listOf : (listOf v get mk).Numbered :=
  .of_numbers [1] rfl (by decide) (by decide)

theorem local_listOf (confined : Confined 1 v.read) : (listOf v get mk).Local := by
  simp only [MessageCodec.Local, listOf, List.forall_mem_cons]
  exact ⟨FieldCodec.local_repeated confined, by simp⟩

theorem records_listOf (v : ValueCodec α) (get : μ → List α) (mk : List α → μ) (m : μ) :
    (listOf v get mk).records m = (get m).mapM (FieldCodec.record 1 v) := by
  rw [records, listOf, List.mapM_cons]
  change ((get m).mapM (FieldCodec.record 1 v) >>= _) >>= _ = _
  cases (get m).mapM (FieldCodec.record 1 v) with
  | error e => rfl
  | ok records =>
    change Except.ok [records].flatten = _
    rw [List.flatten_singleton]

theorem foldl_listOf (get_mk : ∀ as, get (mk as) = as) (front as : List α) :
    as.foldl (fun m a => mk (get m ++ [a])) (mk front) = mk (front ++ as) := by
  induction as generalizing front with
  | nil => simp
  | cons a as ih => simp [get_mk, ih]

theorem list_round_trip (get_mk : ∀ as, get (mk as) = as) (carries : ∀ a ∈ get m, v.Carries 0 a a) :
    ∃ b, (listOf v get mk).encode m = .ok b ∧
      (b.size < 4294967296 → (listOf v get mk).decode b = .ok (mk (get m))) := by
  have delivers : Delivers 0 m (listOf v get mk).fields (mk []) (mk ([] ++ get m)) := by
    rw [← foldl_listOf get_mk]
    exact .cons (FieldCodec.delivers_repeated carries) (.nil _)
  obtain ⟨records, -, encode, decode⟩ := decode_encode numbered_listOf delivers
  refine ⟨_, encode, fun short => decode (short_of_flatten ?_)⟩
  simpa [ByteArray.size] using short

end MessageCodec

namespace Shop

variable {F : Form}

namespace Widget

def Survives (w : Widget F) : Prop :=
  ∃ b, (codec F).encode w = .ok b ∧ (codec F).decode b = .ok w

-- The parts of the widget leave a level to spare.
def Low (w : Widget F) : Prop :=
  ∀ p ∈ w.parts, p.height ≤ 99

variable {w : Widget F}

theorem Survives.content (survives : w.Survives) : ∃ content, (codec F).write w = .ok content ∧
    Pieces (codec F).readRecord 0 content.length (codec F).base content w := by
  obtain ⟨b, encode, decode⟩ := survives
  obtain ⟨content, write, encode⟩ := ok_of_bind encode
  cases encode
  refine ⟨content, write, ?_⟩
  simpa [ByteArray.size] using MessageCodec.pieces_of_decode (local_codec F) decode

theorem Survives.canonical (lawful : F.Lawful) (survives : w.Survives) : w.Canonical := by
  obtain ⟨content, -, pieces⟩ := survives.content
  exact (MessageCodec.holds_of_pieces (keeps_readable lawful) pieces (Readable.base lawful)).canonical

theorem carries_message (lawful : F.Lawful) (survives : w.Survives) (low : w.Low) :
    (ValueCodec.message (codec F)).Carries 0 w w := by
  obtain ⟨content, write, alone⟩ := survives.content
  have room : ∀ p ∈ w.parts, 1 + p.height ≤ 100 := fun p member => by
    have := low p member
    omega
  obtain ⟨records, writes, pieces⟩ := MessageCodec.pieces_of_records (numbered F)
    (delivers_onto lawful (by decide : 1 < Wire.recursionLimit) (survives.canonical lawful) room (base F))
  have same : records.flatten = content := by
    rw [MessageCodec.write, writes] at write
    exact Except.ok.inj write
  refine ⟨Wire.Bytes.delimited content, ?_, fun short => ?_⟩
  · simp only [ValueCodec.message, write]
    rfl
  · rw [Wire.Bytes.delimited, List.length_append] at short
    have inside := pieces (MessageCodec.short_of_flatten (by rw [same]; omega))
    rw [same] at inside
    -- The same content has been read with nothing open, where no other widget can have come of it.
    have outside := MessageCodec.pieces_shallower (placeless F) inside (Nat.zero_le 1)
    obtain ⟨-, read⟩ := alone.unique rfl (by rwa [List.append_nil] : Pieces _ 0 _ _ (content ++ []) _)
    rw [← read]
    exact MessageCodec.takes_message (by decide) (by omega) inside

theorem low_of_pieces (lawful : F.Lawful) {n : Nat} {bytes : List UInt8}
    (pieces : Pieces (codec F).readRecord 1 n (base F) bytes w) : w.Low := by
  have held := MessageCodec.holds_of_pieces (keeps_readable lawful) pieces (Readable.base lawful)
  intro p member
  have := held.low p member
  omega

theorem low_of_takes_message (lawful : F.Lawful) {content more payload : List UInt8} {w' : Widget F}
    (alone : Pieces (codec F).readRecord 0 content.length (base F) content w)
    (short : content.length < 4294967296) (takes : Takes (ValueCodec.message (codec F)).read 0 payload w')
    (stand : payload <+: Wire.Bytes.delimited content ++ more) :
    payload = Wire.Bytes.delimited content ∧ w.Low := by
  obtain ⟨bytes, rfl, stand, inside⟩ := MessageCodec.pieces_of_takes_message (local_codec F) short takes stand
  -- One level up these bytes are those of `w`, so they are no more than its content.
  obtain ⟨beyond, rfl⟩ := List.prefix_of_prefix_length_le (List.prefix_append content more) stand inside.le_length
  have outside := MessageCodec.pieces_shallower (placeless F) inside (Nat.zero_le 1)
  obtain ⟨rfl, rfl⟩ := alone.unique rfl outside
  rw [List.append_nil] at inside ⊢
  exact ⟨rfl, low_of_pieces lawful inside⟩

end Widget

namespace WidgetsResponse

open Widget (Survives Low)

theorem codec_eq (F : Form) : codec F = .listOf (.message (Widget.codec F)) (·.widgets) (⟨·⟩) :=
  rfl

theorem local_codec (F : Form) : (codec F).Local :=
  MessageCodec.local_listOf (MessageCodec.confined_message (Widget.local_codec F))

def widgetsField : FieldCodec (WidgetsResponse F) :=
  .repeated 1 (.message (Widget.codec F)) (·.widgets) fun a r => ⟨r.widgets ++ [a]⟩

theorem low_of_records (lawful : F.Lawful) {ws : List (Widget F)} (survive : ∀ w ∈ ws, w.Survives)
    {records : List (List UInt8)} (short : records.flatten.length < 4294967296)
    (writes : ws.mapM (FieldCodec.record 1 (.message (Widget.codec F))) = .ok records)
    {r r' : WidgetsResponse F}
    (pieces : Pieces (codec F).readRecord 0 records.flatten.length r records.flatten r') :
    ∀ w ∈ ws, w.Low := by
  induction ws generalizing records r with
  | nil => simp
  | cons w ws ih =>
    rw [List.mapM_cons] at writes
    obtain ⟨record, first, writes⟩ := ok_of_bind writes
    obtain ⟨others, rest, writes⟩ := ok_of_bind writes
    cases writes
    obtain ⟨content, write, alone⟩ := (survive w (List.mem_cons_self ..)).content
    have framed : (ValueCodec.message (Widget.codec F)).write w = .ok (Wire.Bytes.delimited content) := by
      simp only [ValueCodec.message, write]
      rfl
    rw [FieldCodec.record_ok 1 framed] at first
    cases first
    rw [List.flatten_cons, List.append_assoc] at pieces short
    simp only [List.length_append] at short
    rw [List.length_append] at pieces
    have small : FieldCodec.tag 1 .delimited < 4294967296 := by decide
    obtain ⟨payload, more, r₁, split, takes, later⟩ :=
      (MessageCodec.pieces_tag_iff (f := widgetsField) (local_codec F) small rfl).1 pieces
    obtain ⟨w', -, takes⟩ := Confined.of_map (MessageCodec.confined_message (Widget.local_codec F)) takes
    have frame : (Wire.Bytes.delimited content).length = (varintBytes content.length).length + content.length :=
      List.length_append
    obtain ⟨rfl, front⟩ := Widget.low_of_takes_message lawful alone (by omega) takes ⟨more, split.symm⟩
    obtain rfl := List.append_cancel_left split
    have left : (Wire.Bytes.delimited content ++ others.flatten).length - (Wire.Bytes.delimited content).length =
        others.flatten.length := by
      rw [List.length_append]
      omega
    rw [left] at later
    have back := ih (fun w member => survive w (List.mem_cons_of_mem _ member)) (by omega) rest later
    exact List.forall_mem_cons.2 ⟨front, back⟩

-- A response is what its own encoding is read as if and only if all its widgets leave a level to spare, and
-- otherwise the encoding is not read at all.
theorem decode_eq_ok_iff (lawful : F.Lawful) {r r' : WidgetsResponse F} {b : ByteArray}
    (survive : ∀ w ∈ r.widgets, w.Survives) (encode : (codec F).encode r = .ok b)
    (short : b.size < 4294967296) :
    (codec F).decode b = .ok r' ↔ r' = r ∧ ∀ w ∈ r.widgets, w.Low := by
  have back (low : ∀ w ∈ r.widgets, w.Low) : (codec F).decode b = .ok r := by
    obtain ⟨b', encode', decode⟩ := MessageCodec.list_round_trip (m := r) (fun ws => (rfl : (mk ws).widgets = ws))
      fun w member => Widget.carries_message lawful (survive w member) (low w member)
    rw [← codec_eq, encode] at encode'
    cases encode'
    exact decode short
  constructor
  · intro decode
    obtain ⟨content, write, encode⟩ := ok_of_bind encode
    obtain ⟨records, writes, write⟩ := ok_of_bind write
    cases encode
    cases write
    rw [codec_eq, MessageCodec.records_listOf] at writes
    have size : (⟨records.flatten.toArray⟩ : ByteArray).size = records.flatten.length := by
      simp [ByteArray.size]
    have pieces := MessageCodec.pieces_of_decode (local_codec F) decode
    rw [size] at pieces short
    have low := low_of_records lawful survive short writes pieces
    refine ⟨?_, low⟩
    rw [back low] at decode
    exact (Except.ok.inj decode).symm
  · rintro ⟨rfl, low⟩
    exact back low

end WidgetsResponse

end Shop

end Protogen
