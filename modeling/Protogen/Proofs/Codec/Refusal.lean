import Protogen.Proofs.Codec.Message
import Protogen.Proofs.Except
import Protogen.Proofs.Wire.Failing

set_option autoImplicit false

namespace Protogen

open Wire (Read Reader varintBytes)
open Wire.Read (Takes Fails Pieces)

namespace ValueCodec

variable {α β : Type} {depth : Nat} {e : CodecError}

def Refuses (c : ValueCodec α) (depth : Nat) (a : α) (e : CodecError) : Prop :=
  ∃ bytes, c.write a = .ok bytes ∧ (bytes.length < 4294967296 → Fails c.read depth bytes e)

theorem Carries.refuses {c : ValueCodec β} {toWire : α → Except CodecError β} {ofWire : β → Except CodecError α}
    {a : α} {x y : β} (carries : c.Carries depth x y) (out : toWire a = .ok x) (back : ofWire y = .error e) :
    (c.via toWire ofWire).Refuses depth a e := by
  obtain ⟨bytes, write, takes⟩ := carries
  refine ⟨bytes, ?_, fun short => ?_⟩
  · simp only [ValueCodec.via, out]
    exact write
  · rw [← List.append_nil bytes]
    refine Fails.after (takes short) ?_
    rw [back]
    exact Fails.throw depth [] e

end ValueCodec

namespace FieldCodec

variable {μ α : Type} {depth : Nat} {w m : μ} {e : CodecError}

def Refuses (f : FieldCodec μ) (depth : Nat) (w m : μ) (e : CodecError) : Prop :=
  ∃ wireType payload, f.records w = .ok [varintBytes (tag f.number wireType) ++ payload] ∧
    (payload.length < 4294967296 → Fails (f.read (tag f.number wireType) m) depth payload e)

theorem refuses_optional {number : Nat} {c : ValueCodec α} {get : μ → Option α} {set : α → μ → μ} {a : α}
    (present : get w = some a) (refuses : c.Refuses depth a e) :
    (optional number c get set).Refuses depth w m e := by
  obtain ⟨bytes, write, fails⟩ := refuses
  refine ⟨c.wireType, bytes, ?_, fun short => (fails short).bind _⟩
  simp only [optional, present, record, write]
  rfl

end FieldCodec

namespace MessageCodec

variable {μ : Type} {c : MessageCodec μ} {f : FieldCodec μ} {front back : List (FieldCodec μ)} {w m : μ}
  {e : CodecError}

theorem encode_eq_ok {b : ByteArray} (encoded : c.encode w = .ok b) :
    ∃ records, c.fields.mapM (·.records w) = .ok records ∧ b = ⟨records.flatten.flatten.toArray⟩ := by
  obtain ⟨bytes, written, same⟩ := ok_of_bind encoded
  obtain ⟨all, found, same'⟩ := ok_of_bind written
  obtain ⟨records, each, same''⟩ := ok_of_bind found
  cases same''
  cases same'
  cases same
  exact ⟨records, each, rfl⟩

theorem fails_readRecord {depth : Nat} {wireType : Wire.WireType} {payload : List UInt8} (numbered : c.Numbered)
    (member : f ∈ c.fields) (fails : Fails (f.read (FieldCodec.tag f.number wireType) m) depth payload e) :
    Fails (c.readRecord m) depth (varintBytes (FieldCodec.tag f.number wireType) ++ payload) e := by
  refine Fails.after (Wire.Read.takes_tag depth (FieldCodec.tag_lt (numbered.small f member) wireType)) ?_
  rw [FieldCodec.tag_div, find?_number numbered.distinct member]
  exact fails

theorem decode_of_fails {bytes record rest : List UInt8}
    (pieces : Pieces c.readRecord 0 bytes.length c.base bytes m) (nonempty : 0 < record.length)
    (fails : Fails (c.readRecord m) 0 record e) : c.decode ⟨(bytes ++ record ++ rest).toArray⟩ = .error e := by
  have here := (Reader.at_holding 0 (bytes ++ record ++ rest)).left
  have before : 0 + bytes.length < (bytes ++ record ++ rest).length := by simp; omega
  obtain ⟨r, failure⟩ := Fails.whileBefore pieces rfl fails here before (Nat.le_refl _)
  have read : c.read none (.ofBytes ⟨(bytes ++ record ++ rest).toArray⟩) = .error e r := failure
  rw [decode, read]

theorem decode_of_refuses {b : ByteArray} (numbered : c.Numbered) (split : c.fields = front ++ f :: back)
    (delivers : Delivers 0 w front c.base m) (refuses : f.Refuses 0 w m e) (encoded : c.encode w = .ok b)
    (short : b.size < 4294967296) : c.decode b = .error e := by
  have member : f ∈ c.fields := by simp [split]
  have members : ∀ g ∈ front, g ∈ c.fields := fun g early => by simp [split, early]
  obtain ⟨wireType, payload, single, fails⟩ := refuses
  obtain ⟨early, writes, pieces⟩ := pieces_of_delivers numbered members delivers
  obtain ⟨records, written, rfl⟩ := encode_eq_ok encoded
  -- The records are those of the fields in front, the refused one, and what is written after it.
  rw [split, List.mapM_append, writes, List.mapM_cons, single] at written
  obtain ⟨_, ⟨⟩, written⟩ := ok_of_bind written
  obtain ⟨others, later, same⟩ := ok_of_bind written
  obtain ⟨_, ⟨⟩, later⟩ := ok_of_bind later
  obtain ⟨rest, -, same'⟩ := ok_of_bind later
  cases same'
  cases same
  have whole : (early ++ [varintBytes (FieldCodec.tag f.number wireType) ++ payload] :: rest).flatten.flatten =
      early.flatten.flatten ++ (varintBytes (FieldCodec.tag f.number wireType) ++ payload) ++
        rest.flatten.flatten := by simp
  rw [whole] at short ⊢
  rw [ByteArray.size, List.size_toArray, List.length_append, List.length_append, List.length_append] at short
  have tagged := Wire.length_varintBytes_pos (FieldCodec.tag f.number wireType)
  refine decode_of_fails (pieces (short_of_flatten (by omega))) ?_
    (fails_readRecord numbered member (fails (by omega)))
  rw [List.length_append]
  omega

end MessageCodec

end Protogen
