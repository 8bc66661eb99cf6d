import Protogen.Proofs.Codec.JsonStrip
import Protogen.Proofs.Shop.Children

set_option autoImplicit false

namespace Protogen

namespace WellKnown.Timestamp

def strip (L : LongForm Int64) : Json → Json :=
  (json L).strip fun _ v => v

theorem overlooks_strip (L : LongForm Int64) : (json L).codec.Overlooks (strip L) :=
  JsonMessage.overlooks_strip_flat _

end WellKnown.Timestamp

namespace Shop

open WellKnown (Timestamp Wrapper)

theorem OptionSet.overlooks_date (S : OptionSet) :
    S.form.date.json.Overlooks (Timestamp.strip S.form.signed) := by
  intro v keyed
  have same : (Timestamp.json S.form.signed).read (Timestamp.strip S.form.signed v) =
      (Timestamp.json S.form.signed).read v := Timestamp.overlooks_strip S.form.signed v keyed
  cases v with
  | string => cases S <;> rfl
  | null | bool | int | double | array | object =>
    -- What is no text is read as a timestamp, in whatever form it is held then.
    cases S with
    | defaults | minimal => exact same
    | strings => exact congrArg (· >>= Timestamp.toMoment) same
    | bigints => exact congrArg (· >>= Timestamp.toText) same

namespace Part

def keys : List String := ["sku", "child"]

def strip : Json → Json
  | .object members =>
    .object ((members.filter fun m => keys.contains m.1 && !m.2.isNull).map fun m =>
      (m.1, if m.1 = "child" then strip m.2 else m.2))
  | v => v
decreasing_by
  rename_i member _
  have smaller := List.sizeOf_lt_of_mem member
  obtain ⟨key, v⟩ := m
  simp at smaller ⊢
  omega

def stripMember (key : String) (v : Json) : Json :=
  if key = "child" then strip v else v

theorem strip_eq (v : Json) : strip v = Json.strip keys stripMember v := by
  rw [strip.eq_def]
  cases v <;> rfl

theorem isNull_stripMember (key : String) (v : Json) : (stripMember key v).isNull = v.isNull := by
  rw [stripMember]
  split
  · rw [strip_eq, Json.isNull_strip]
  · rfl

-- Two objects give the same part if they have the same text, and children that give the same one.
theorem ofJson_congr {members members' : List (String × Json)}
    (sku : Json.member? members' "sku" = Json.member? members "sku")
    (child : Json.member? members' "child" = (Json.member? members "child").map strip)
    (nested : ∀ v, Json.member? members "child" = some v → ofJson (strip v) = ofJson v) :
    ofJson (.object members') = ofJson (.object members) := by
  rw [ofJson, ofJson, sku]
  cases Json.member? members "sku" <;> apply bind_congr <;> intro s
  all_goals
    cases found : Json.member? members "child" with
    | none =>
      rw [found] at child
      split <;> simp_all
    | some v =>
      rw [found] at child
      split <;> simp_all

theorem overlooks_strip : json.Overlooks strip := by
  intro v keyed
  change ofJson (strip v) = ofJson v
  induction keyed with
  | @object members distinct values ih =>
    have found {key : String} (declared : key ∈ keys) :=
      Json.member?_strip declared (isNull_stripMember key) distinct
    have sku := found (List.mem_cons_self ..)
    have child := found (List.mem_cons_of_mem _ (List.mem_singleton_self _))
    rw [strip_eq, Json.strip]
    apply ofJson_congr
    · rw [sku]
      exact congrFun Option.map_id _
    · exact child
    · intro v present
      exact ih _ ((Json.member?_eq_some_iff distinct).1 present).1
  | null | bool | int | double | string | array => exact congrArg ofJson (strip_eq _)

end Part

namespace Widget

def stripMember (F : Form) (key : String) : Json → Json :=
  if key = "created" then Timestamp.strip F.signed
  else if key = "parts" then Json.mapItems Part.strip
  else fun v => v

def strip (F : Form) : Json → Json :=
  (json F).strip (stripMember F)

theorem isNull_stripMember (F : Form) (key : String) (v : Json) : (stripMember F key v).isNull = v.isNull := by
  rw [stripMember]
  split
  · rw [Timestamp.strip, JsonMessage.strip, Json.isNull_strip]
  · split
    · exact Json.isNull_mapItems _ v
    · rfl

theorem overlooks_strip (S : OptionSet) : (json S.form).codec.Overlooks (strip S.form) := by
  have plain {f : JsonField (Widget S.form)} (other : f.key ≠ "created" ∧ f.key ≠ "parts") :
      f.Overlooks (stripMember S.form f.key) := by
    rw [stripMember, if_neg other.1, if_neg other.2]
    exact fun _ _ _ => rfl
  apply JsonMessage.overlooks_strip (isNull_stripMember S.form)
  simp only [json, List.forall_mem_cons]
  refine ⟨plain ?_, plain ?_, plain ?_, plain ?_, JsonField.overlooks_optional S.overlooks_date, plain ?_, plain ?_,
    plain ?_, plain ?_, JsonField.overlooks_required (JsonCodec.overlooks_list Part.overlooks_strip), plain ?_,
    plain ?_, plain ?_, plain ?_, plain ?_, plain ?_, List.forall_mem_nil _⟩
  all_goals cases S <;> decide

end Widget

namespace SampleMessage

def json (F : Form) : (k : SampleMessage) → JsonCodec (k.Carrier F)
  | widget => (Widget.json F).codec
  | part => Part.json
  | stockEntry => StockEntry.json.codec
  | timestamp => (Timestamp.json F.signed).codec
  | stringValue => Wrapper.stringJson.codec
  | int64Value => (Wrapper.int64Json F.signed).codec
  | request => WidgetsRequest.json.codec
  | response => (WidgetsResponse.json F).codec

/-- The value without the members that the message and the messages in it do not have or that are null. -/
def strip (F : Form) : SampleMessage → Json → Json
  | widget => Widget.strip F
  | part => Part.strip
  | stockEntry => StockEntry.json.strip fun _ v => v
  | timestamp => Timestamp.strip F.signed
  | stringValue => Wrapper.stringJson.strip fun _ v => v
  | int64Value => (Wrapper.int64Json F.signed).strip fun _ v => v
  | request => WidgetsRequest.json.strip fun _ v => v
  | response => (WidgetsResponse.json F).strip fun _ => Json.mapItems (Widget.strip F)

theorem overlooks_strip (S : OptionSet) (k : SampleMessage) : (k.json S.form).Overlooks (k.strip S.form) := by
  cases k with
  | widget => exact Widget.overlooks_strip S
  | part => exact Part.overlooks_strip
  | timestamp => exact Timestamp.overlooks_strip _
  | stockEntry | stringValue | int64Value | request => exact JsonMessage.overlooks_strip_flat _
  | response =>
    apply JsonMessage.overlooks_strip
    · exact fun _ v => Json.isNull_mapItems _ v
    · simp only [WidgetsResponse.json, List.forall_mem_singleton]
      exact JsonField.overlooks_required (JsonCodec.overlooks_list (Widget.overlooks_strip S))

/-- Reading takes no notice of members that are null or that the message has no field for: what is read, or the failure,
is the same without them, for all values that have every key once, as all have that are read from a text. -/
theorem read_strip (S : OptionSet) (k : SampleMessage) :
    (∀ v : Json, v.Keyed → (k.json S.form).read (k.strip S.form v) = (k.json S.form).read v) ∧
    ∀ (text : String) (v : Json), Json.parse? text = some v →
      (k.json S.form).read (k.strip S.form v) = (k.json S.form).read v :=
  ⟨overlooks_strip S k, fun _ v parsed => overlooks_strip S k v (Json.keyed_of_parse? parsed)⟩

def crowded : Json :=
  .object [("page", .int 2), ("widgets", .array [
    .object [
      ("created", .object [("nanos", .null), ("zone", .string "Z")]),
      ("id", .null),
      ("parts", .array [.object [("child", .object [("sku", .null), ("x", .bool true)])]])]])]

def bare : Json :=
  .object [("widgets", .array [
    .object [("created", .object []), ("parts", .array [.object [("child", .object [])]])]])]

set_option maxRecDepth 8000 in
theorem read_strip_crowded :
    Json.parse? crowded.compact = some crowded ∧ crowded.Keyed ∧ response.strip .texts crowded = bare ∧
      (response.json .texts).read bare =
        .ok ⟨[{ Widget.base .texts with created := some ⟨0, 0⟩, parts := [⟨"", some ⟨"", none⟩⟩] }]⟩ ∧
      (response.json .texts).read crowded = (response.json .texts).read bare := by
  have parsed : Json.parse? crowded.compact = some crowded := by cbv
  have keyed := Json.keyed_of_parse? parsed
  have left : response.strip .texts crowded = bare := by cbv
  refine ⟨parsed, keyed, left, by cbv, ?_⟩
  rw [← left]
  exact ((read_strip .strings .response).1 crowded keyed).symm

end SampleMessage

end Shop

end Protogen
