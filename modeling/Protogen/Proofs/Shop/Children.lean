import Protogen.Proofs.Shop.Form
import Protogen.Proofs.Shop.Widget

set_option autoImplicit false

namespace Protogen.Shop

open Wire (Read Reader WireType)
open WellKnown (Timestamp Wrapper)

/-- The messages of the sample schema. -/
inductive SampleMessage where
  | widget
  | part
  | stockEntry
  | timestamp
  | stringValue
  | int64Value
  | request
  | response
  deriving DecidableEq

namespace SampleMessage

@[reducible] def Carrier (F : Form) : SampleMessage → Type
  | widget => Widget F
  | part => Part
  | stockEntry => StockEntry
  | timestamp => Timestamp F.signed
  | stringValue => Wrapper String
  | int64Value => Wrapper F.signed.Carrier
  | request => WidgetsRequest
  | response => WidgetsResponse F

def codec (F : Form) : (k : SampleMessage) → MessageCodec (k.Carrier F)
  | widget => Widget.codec F
  | part => Part.codec
  | stockEntry => StockEntry.codec
  | timestamp => Timestamp.codec F.signed
  | stringValue => Wrapper.string
  | int64Value => Wrapper.int64 F.signed
  | request => WidgetsRequest.codec
  | response => WidgetsResponse.codec F

theorem local_codec (F : Form) (k : SampleMessage) : (k.codec F).Local := by
  cases k with
  | widget => exact Widget.local_codec F
  | part => exact Part.local_codecTo Wire.recursionLimit
  | stockEntry => exact StockEntry.local_codec
  | timestamp => exact Timestamp.local_codec F.signed
  | stringValue => exact Wrapper.local_codec Wire.Read.confined_string
  | int64Value => exact Wrapper.local_codec (LongForm.confined_codec Word.lawful_signed)
  | request =>
    simp only [codec, MessageCodec.Local, WidgetsRequest.codec, List.forall_mem_cons]
    exact ⟨FieldCodec.local_repeated Wire.Read.confined_string, by simp⟩
  | response =>
    simp only [codec, MessageCodec.Local, WidgetsResponse.codec, List.forall_mem_cons]
    exact ⟨FieldCodec.local_repeated (MessageCodec.confined_message (Widget.local_codec F)), by simp⟩

-- A child with a length ends no earlier than the length says, and there exactly if nothing in it needs the bytes
-- behind.
theorem child_end {F : Form} (k : SampleMessage) {r r' : Reader} {len : Nat} {m : k.Carrier F}
    (read : (k.codec F).read (some len) r = .ok m r') :
    r'.data = r.data ∧ r.index + len ≤ r'.index ∧ r'.index ≤ r.data.size ∧
      (r'.index = r.index + len ↔ ∃ r'', (k.codec F).read (some len) (r.cut (r.index + len)) = .ok m r'') := by
  have confined := MessageCodec.confined_read (local_codec F k) len
  obtain ⟨_, _, check, -⟩ := Wire.Read.bind_eq_ok read
  obtain ⟨-, -, room⟩ := Wire.Read.endOf_eq_ok check
  obtain ⟨bytes, here, rfl, long, -⟩ := confined.taken (by omega) read
  have past : r.index + len ≤ (r.advance bytes.length).index := by
    rw [Reader.advance_index]
    omega
  exact ⟨rfl, past, here.room, confined.exact_iff (Nat.le_add_right ..) room read past⟩

theorem run_end {F : Form} {tag n : Nat} {w w' : Widget F} {r r₁ r' : Reader}
    (run : tag % 8 = WireType.delimited.number) (announced : Read.length r = .ok n r₁)
    (read : Widget.sizesField.read tag w r = .ok w' r') :
    r'.data = r.data ∧ r₁.index + n ≤ r'.index ∧ r'.index ≤ r.data.size ∧
      (r'.index = r₁.index + n ↔
        ∃ r'', Widget.sizesField.read tag w (r.cut (r₁.index + n)) = .ok w' r'') := by
  have confined : Read.Confined 0 (Widget.sizesField.read tag w) :=
    FieldCodec.local_packed Wire.Read.confined_int32 tag w
  have inside := Wire.Read.inside_of_length announced
  have room := Wire.Read.room_of_length announced
  obtain ⟨front, v, here, -, -, -, rfl⟩ := Wire.Read.length_eq_ok inside announced
  -- The tag says that this is a run, so the read starts with the length that was announced.
  have rest := read
  rw [Widget.sizesField, FieldCodec.packed_read_run run, Wire.Read.bind_of_ok announced] at rest
  obtain ⟨bytes, there, rfl, long, -⟩ := (Wire.Read.confined_within
    (fun w => Wire.Read.confined_int32.map _) n w).taken here.room rest
  have past : (r.advance front.length).index + n ≤ ((r.advance front.length).advance bytes.length).index := by
    change r.index + front.length + n ≤ r.index + front.length + bytes.length
    omega
  refine ⟨rfl, past, there.room, confined.exact_iff ?_ room read past⟩
  rw [Reader.advance_index]
  omega

/-- Where a length is announced, the read that it bounds ends no earlier than it says. The two ends are the
same exactly if the read would do as well were the buffer to end there, and otherwise the last value has
taken bytes of what follows. -/
theorem announced_end (S : OptionSet) :
    (∀ (k : SampleMessage) (r r' : Reader) (len : Nat) (m : k.Carrier S.form),
      (k.codec S.form).read (some len) r = .ok m r' →
      r'.data = r.data ∧ r.index + len ≤ r'.index ∧ r'.index ≤ r.data.size ∧
        (r'.index = r.index + len ↔
          ∃ r'', (k.codec S.form).read (some len) (r.cut (r.index + len)) = .ok m r'')) ∧
    ∀ (tag n : Nat) (w w' : Widget S.form) (r r₁ r' : Reader), tag % 8 = WireType.delimited.number →
      Read.length r = .ok n r₁ → Widget.sizesField.read tag w r = .ok w' r' →
      r'.data = r.data ∧ r₁.index + n ≤ r'.index ∧ r'.index ≤ r.data.size ∧
        (r'.index = r₁.index + n ↔
          ∃ r'', Widget.sizesField.read tag w (r.cut (r₁.index + n)) = .ok w' r'') :=
  ⟨fun k _ _ _ _ read => child_end k read, fun _ _ _ _ _ _ _ run announced read =>
    run_end run announced read⟩

set_option maxRecDepth 4000 in
-- A part and a run that end where they were announced to, and a part and a run whose last value, the length of a
-- text and a number, lies behind.
theorem announced_end_part :
    (Part.codec.read (some 3) (.ofBytes ⟨#[0x0a, 0x01, 0x78, 0x00]⟩) =
        .ok ⟨"x", none⟩ { data := ⟨#[0x0a, 0x01, 0x78, 0x00]⟩, index := 3 } ∧
      ∃ r'', Part.codec.read (some 3) ((Reader.ofBytes ⟨#[0x0a, 0x01, 0x78, 0x00]⟩).cut 3) = .ok ⟨"x", none⟩ r'') ∧
    (Part.codec.read (some 1) (.ofBytes ⟨#[0x0a, 0x00]⟩) =
        .ok ⟨"", none⟩ { data := ⟨#[0x0a, 0x00]⟩, index := 2 } ∧
      ¬∃ r'', Part.codec.read (some 1) ((Reader.ofBytes ⟨#[0x0a, 0x00]⟩).cut 1) = .ok ⟨"", none⟩ r'') ∧
    (Widget.sizesField.read 26 (Widget.base .plain) (.ofBytes ⟨#[0x02, 0x01, 0x02, 0x00]⟩) =
        .ok { Widget.base .plain with sizes := [1, 2] } { data := ⟨#[0x02, 0x01, 0x02, 0x00]⟩, index := 3 } ∧
      ∃ r'', Widget.sizesField.read 26 (Widget.base .plain) ((Reader.ofBytes ⟨#[0x02, 0x01, 0x02, 0x00]⟩).cut 3) =
        .ok { Widget.base .plain with sizes := [1, 2] } r'') ∧
    Widget.sizesField.read 26 (Widget.base .plain) (.ofBytes ⟨#[0x01, 0x80, 0x01]⟩) =
        .ok { Widget.base .plain with sizes := [128] } { data := ⟨#[0x01, 0x80, 0x01]⟩, index := 3 } ∧
      ¬∃ r'', Widget.sizesField.read 26 (Widget.base .plain) ((Reader.ofBytes ⟨#[0x01, 0x80, 0x01]⟩).cut 2) =
        .ok { Widget.base .plain with sizes := [128] } r'' := by
  have part : Part.codec.read (some 3) (.ofBytes ⟨#[0x0a, 0x01, 0x78, 0x00]⟩) =
      .ok ⟨"x", none⟩ { data := ⟨#[0x0a, 0x01, 0x78, 0x00]⟩, index := 3 } := by cbv
  have part' : Part.codec.read (some 1) (.ofBytes ⟨#[0x0a, 0x00]⟩) =
      .ok ⟨"", none⟩ { data := ⟨#[0x0a, 0x00]⟩, index := 2 } := by cbv
  have length : Read.length (.ofBytes ⟨#[0x02, 0x01, 0x02, 0x00]⟩) =
      .ok 2 { data := ⟨#[0x02, 0x01, 0x02, 0x00]⟩, index := 1 } := by cbv
  have run : Widget.sizesField.read 26 (Widget.base .plain) (.ofBytes ⟨#[0x02, 0x01, 0x02, 0x00]⟩) =
      .ok { Widget.base .plain with sizes := [1, 2] } { data := ⟨#[0x02, 0x01, 0x02, 0x00]⟩, index := 3 } := by cbv
  have length' : Read.length (.ofBytes ⟨#[0x01, 0x80, 0x01]⟩) =
      .ok 1 { data := ⟨#[0x01, 0x80, 0x01]⟩, index := 1 } := by cbv
  have run' : Widget.sizesField.read 26 (Widget.base .plain) (.ofBytes ⟨#[0x01, 0x80, 0x01]⟩) =
      .ok { Widget.base .plain with sizes := [128] } { data := ⟨#[0x01, 0x80, 0x01]⟩, index := 3 } := by cbv
  obtain ⟨children, runs⟩ := announced_end .defaults
  refine ⟨⟨part, (children .part _ _ 3 _ part).2.2.2.1 rfl⟩, ⟨part', fun same => ?_⟩,
    ⟨run, (runs 26 2 _ _ _ _ _ rfl length run).2.2.2.1 rfl⟩, run', fun same => ?_⟩
  · exact absurd ((children .part _ _ 1 _ part').2.2.2.2 same) (by decide)
  · exact absurd ((runs 26 1 _ _ _ _ _ rfl length' run').2.2.2.2 same) (by decide)

set_option maxRecDepth 4000 in
/-- A read does not always end where its bytes were announced to. -/
theorem part_past_end : ¬∀ (k : SampleMessage) (r r' : Reader) (len : Nat) (m : k.Carrier .plain),
    (k.codec .plain).read (some len) r = .ok m r' → r'.index = r.index + len := by
  intro always
  have read : Part.codec.read (some 1) (.ofBytes ⟨#[0x0a, 0x00]⟩) =
      .ok ⟨"", none⟩ { data := ⟨#[0x0a, 0x00]⟩, index := 2 } := by cbv
  exact absurd (always .part _ _ 1 _ read) (by decide)

end SampleMessage

end Protogen.Shop
