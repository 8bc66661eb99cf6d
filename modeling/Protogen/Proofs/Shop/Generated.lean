import Protogen.Proofs.Compile.Records
import Protogen.Proofs.Shop.Operations
import Protogen.Proofs.Wire.InPlace

set_option autoImplicit false

namespace Protogen

-- Whether a field that is not repeated can be told to be absent.
def Schema.Field.hasPresence (g : Schema.Field) : Bool :=
  g.explicitPresence || g.choice.isSome || g.kind == .message

namespace Target

-- Whether the field may lack a value in an item.
def Field.mayBeAbsent (g : Field) : Bool :=
  match g.container with
  | .optional | .union _ _ => true
  | .required | .repeated | .map _ => false

theorem Field.mayBeAbsent_ofSchema {ctx : Context} {owner : String} {f : Schema.Field} {g : Field}
    (success : Field.ofSchema ctx owner f = .ok g) : g.mayBeAbsent = (!f.isRepeated && f.hasPresence) := by
  cases Field.mapped_ofSchema success with
  | plain _ success =>
    obtain ⟨base, mapped, success⟩ := ok_of_bind success
    cases success
    have delimited : base.isDelimited = (f.kind == .message) := by
      have suits := Base.suits_ofField mapped
      by_cases kind : f.kind = .message
      next =>
        obtain ⟨_, c, -, -, rfl⟩ := suits.child kind
        rw [kind]
        rfl
      next =>
        obtain ⟨p, rfl, -⟩ := suits.primitive kind
        rw [beq_false_of_ne kind]
        rfl
    rw [mayBeAbsent, containerOf, Schema.Field.hasPresence, ← delimited]
    grind [singular]
  | map many _ _ _ _ _ _ _ result =>
    subst result
    rw [many]
    rfl

end Target

namespace Wire

namespace Kind

def method : Kind → String
  | uint32 => "uint32"
  | int32 => "int32"
  | sint32 => "sint32"
  | uint64 => "uint64"
  | int64 => "int64"
  | sint64 => "sint64"
  | bool => "bool"
  | fixed32 => "fixed32"
  | sfixed32 => "sfixed32"
  | fixed64 => "fixed64"
  | sfixed64 => "sfixed64"
  | single => "float"
  | double => "double"
  | bytes => "bytes"
  | string => "string"

def wireType : Kind → WireType
  | fixed64 | sfixed64 | double => .fixed64
  | fixed32 | sfixed32 | single => .fixed32
  | bytes | string => .delimited
  | _ => .varint

-- Values that are read by the method of a reader, and written by the one of a writer with its name.
def codec (k : Kind) : ValueCodec k.Value :=
  ⟨k.wireType, k.read, fun v => .ok (Scalar.bytes ⟨k, v⟩)⟩

theorem codec_of_number {k : Kind} {number : k.Value → Nat} (numbered : ∀ v, k.number? v = some (number v))
    (alone : ∀ v, k.content v = []) : ⟨k.wireType, k.read, fun v => .ok (varintBytes (number v))⟩ = k.codec := by
  have bytes (v : k.Value) : Scalar.bytes ⟨k, v⟩ = varintBytes (number v) :=
    Scalar.bytes_of_number (numbered v) (alone v)
  simp only [codec, bytes]

end Kind

namespace Read

variable {α β σ : Type} {level : Nat}

-- The two actions do the same wherever a reader is as deep as the level at least.
def AgreeFrom (level : Nat) (action action' : Read α) : Prop :=
  ∀ r : Reader, level ≤ r.depth → action r = action' r

namespace AgreeFrom

variable {action action' : Read α}

theorem refl (level : Nat) (action : Read α) : AgreeFrom level action action :=
  fun _ _ => rfl

theorem bind {next next' : α → Read β} (narrow : Narrow action) (first : AgreeFrom level action action')
    (second : ∀ a, AgreeFrom level (next a) (next' a)) : AgreeFrom level (action >>= next) (action' >>= next') := by
  intro r deep
  -- The second action begins as deep as the first has.
  obtain ⟨_, traced, -⟩ := narrow
  have kept := traced.level r
  change EStateM.bind action next r = EStateM.bind action' next' r
  simp only [EStateM.bind, ← first r deep]
  unfold after at kept
  split at kept
  next a r' success =>
    simp only [success]
    exact second a r' (kept ▸ deep)
  next e r' fault => simp only [fault]

theorem nested (inner : AgreeFrom (level + 1) action action') : AgreeFrom level (nested action) (nested action') := by
  intro r deep
  simp only [Read.nested]
  rw [inner { r with depth := r.depth + 1 } (Nat.succ_le_succ deep)]

theorem nested_of_limit (limit : recursionLimit ≤ level) (action action' : Read α) :
    AgreeFrom level (Read.nested action) (Read.nested action') := by
  intro r deep
  simp only [Read.nested, if_pos (Nat.le_trans limit deep)]

theorem message {decode decode' : Option Nat → Read α}
    (inner : ∀ n, AgreeFrom level (Read.nested (decode (some n))) (Read.nested (decode' (some n)))) :
    AgreeFrom level (Read.message decode) (Read.message decode') :=
  bind Client.length.narrow (refl level _) inner

theorem whileBefore {action action' : σ → Read σ} (each : ∀ s, Client (action s))
    (agree : ∀ s, AgreeFrom level (action s) (action' s)) (stop fuel : Nat) (s : σ) :
    AgreeFrom level (whileBefore stop action fuel s) (whileBefore stop action' fuel s) := by
  induction fuel generalizing s with
  | zero => exact refl level _
  | succ fuel ih =>
    simp only [Read.whileBefore]
    refine bind Narrow.index (refl level _) fun i => ?_
    split
    next => exact bind (each s).narrow (agree s) ih
    next => exact refl level _

theorem repeatTo {action action' : σ → Read σ} (each : ∀ s, Client (action s))
    (agree : ∀ s, AgreeFrom level (action s) (action' s)) (stop : Nat) (start : σ) :
    AgreeFrom level (repeatTo stop start action) (repeatTo stop start action') :=
  fun r deep => whileBefore each agree stop (r.data.size - r.index) start r deep

end AgreeFrom

end Read

end Wire

namespace ValueCodec

open Wire (Kind)

theorem string_eq : string = Kind.string.codec := rfl
theorem bytes_eq : bytes = Kind.bytes.codec := rfl
theorem double_eq : double = Kind.double.codec := rfl

theorem int32_eq : int32 = Kind.int32.codec :=
  Kind.codec_of_number (k := .int32) (fun _ => rfl) fun _ => rfl

theorem int64_eq : int64 = Kind.int64.codec :=
  Kind.codec_of_number (k := .int64) (fun _ => rfl) fun _ => rfl

theorem uint64_eq : uint64 = Kind.uint64.codec :=
  Kind.codec_of_number (k := .uint64) (fun _ => rfl) fun _ => rfl

theorem bool_eq : bool = Kind.bool.codec :=
  Kind.codec_of_number (k := .bool) (fun _ => rfl) fun _ => rfl

end ValueCodec

namespace Shop

open Code (Reads Writes armHead armsOf decodeFn encodeFn textsOf)
open Compile (indexed indexed_eq_ok)
open Schema (Index Label)
open Target (RecordForm Struct)
open WellKnown (DateForm Wrapper)
open Wire (Call Read Tree Writer)
open Wire.Read (AgreeFrom)

namespace Part

variable {level : Nat}

theorem client_childCodec (k : Nat) : Read.Client (childCodec k).read := by
  cases k with
  | zero => exact .message fun _ => .throw _
  | succ k => exact MessageCodec.client_message (client k)

theorem agree_readRecord {k : Nat} (child : AgreeFrom level (childCodec k).read (childCodec (k + 1)).read)
    (p : Part) : AgreeFrom level ((codecTo k).readRecord p) ((codecTo (k + 1)).readRecord p) := by
  refine .bind .tag (.refl level _) fun tag => ?_
  rw [fields_codecTo, fields_codecTo]
  simp only [List.find?_cons, List.find?_nil, FieldCodec.required, FieldCodec.optional]
  cases 1 == tag / 8 with
  | true => exact .refl level _
  | false =>
    cases 2 == tag / 8 with
    | false => exact .refl level _
    | true => exact .bind (client_childCodec k).narrow child fun _ => .refl level _

-- One more level of parts is read only where a reader has one less to go.
theorem agree_childCodec (k : Nat) (enough : Wire.recursionLimit ≤ level + k) :
    AgreeFrom level (childCodec k).read (childCodec (k + 1)).read := by
  induction k generalizing level with
  | zero =>
    have limit : Wire.recursionLimit ≤ level := enough
    change AgreeFrom level (Read.message fun _ => throw (.recursionLimit Wire.recursionLimit))
      (Read.message (codecTo 0).read)
    exact .message fun n => .nested_of_limit limit _ _
  | succ k ih =>
    refine .message fun n => .nested (.bind (.endOf _) (.refl _ _) fun stop => ?_)
    rw [base_codecTo, base_codecTo]
    exact .repeatTo (MessageCodec.client_readRecord (client k)) (agree_readRecord (ih (by omega))) stop base

-- The levels of the codec are never used up, so that a part holds parts of its own codec.
theorem fields_codec : codec.fields = [
    .required 1 .string (·.isEmpty) (·.sku) fun a p => { p with sku := a },
    .optional 2 (.message codec) (·.child) fun a p => { p with child := some a }] := by
  have read : (childCodec Wire.recursionLimit).read = (ValueCodec.message codec).read :=
    funext fun r => agree_childCodec Wire.recursionLimit (Nat.le_add_left ..) r (Nat.zero_le _)
  have write : (childCodec Wire.recursionLimit).write = (ValueCodec.message codec).write := by
    funext c
    simp only [ValueCodec.message, codec, write_codecTo]
    rfl
  have same : childCodec Wire.recursionLimit = .message codec := by
    change ValueCodec.mk _ (childCodec Wire.recursionLimit).read (childCodec Wire.recursionLimit).write = _
    rw [read, write]
    rfl
  rw [codec, fields_codecTo, same, codec]

end Part

section

open Descriptor (Enum EnumValue Field File Message Method Service)

def descriptorField (name : String) (number kind label : Int32) (typeName : Option String) : Field where
  name := some name
  number := some number
  label := some label
  kind := some kind
  typeName := typeName

def singleField (name : String) (number kind : Int32) : Field :=
  descriptorField name number kind 1 none

def descriptorMethod (name input output : String) (clientStreaming serverStreaming : Bool) : Method :=
  ⟨some name, some input, some output, some clientStreaming, some serverStreaming⟩

def timestampFile : File where
  name := some "google/protobuf/timestamp.proto"
  package := some "google.protobuf"
  grammar := some "proto3"
  messages := [{
    name := some "Timestamp"
    fields := [singleField "seconds" 1 3, singleField "nanos" 2 5] }]

def wrappersFile : File where
  name := some "google/protobuf/wrappers.proto"
  package := some "google.protobuf"
  grammar := some "proto3"
  messages := [
    { name := some "StringValue", fields := [singleField "value" 1 9] },
    { name := some "Int64Value", fields := [singleField "value" 1 3] }]

def widgetFile : File where
  name := some "shop/widget.proto"
  package := some "shop"
  grammar := some "proto3"
  dependencies := ["google/protobuf/timestamp.proto", "google/protobuf/wrappers.proto"]
  messages := [
    { name := some "Widget"
      fields := [
        singleField "id" 1 9,
        singleField "weight" 2 3,
        descriptorField "sizes" 3 5 3 none,
        descriptorField "stock" 4 11 3 (some ".shop.Widget.StockEntry"),
        descriptorField "created" 5 11 1 (some ".google.protobuf.Timestamp"),
        descriptorField "note" 6 11 1 (some ".google.protobuf.StringValue"),
        { singleField "name" 7 9 with choice := some 0 },
        { singleField "count" 8 5 with choice := some 0 },
        descriptorField "color" 9 14 1 (some ".shop.Color"),
        descriptorField "parts" 10 11 3 (some ".shop.Widget.Part"),
        { singleField "featured" 11 8 with choice := some 1, explicitPresence := some true },
        singleField "blob" 12 12,
        singleField "serial" 13 4,
        singleField "ratio" 14 1,
        descriptorField "quota" 15 11 1 (some ".google.protobuf.Int64Value"),
        singleField "display_name" 16 9]
      choices := [some "label", some "_featured"]
      messages := [
        { name := some "StockEntry"
          fields := [singleField "key" 1 9, singleField "value" 2 5]
          isMapEntry := some true },
        { name := some "Part"
          fields := [singleField "sku" 1 9, descriptorField "child" 2 11 1 (some ".shop.Widget.Part")] }] },
    { name := some "BatchGetWidgetsRequest", fields := [descriptorField "ids" 1 9 3 none] },
    { name := some "BatchGetWidgetsResponse"
      fields := [descriptorField "widgets" 1 11 3 (some ".shop.Widget")] }]
  enums := [{
    name := some "Color"
    values := [⟨some "COLOR_UNSPECIFIED", some 0⟩, ⟨some "COLOR_RED", some 1⟩, ⟨some "COLOR_BLUE", some 2⟩] }]
  services := [{
    name := some "Widgets"
    methods := [
      descriptorMethod "BatchGetWidgets" ".shop.BatchGetWidgetsRequest" ".shop.BatchGetWidgetsResponse" false false,
      descriptorMethod "WatchWidget" ".shop.Widget" ".shop.Widget" false true,
      descriptorMethod "UploadWidgets" ".shop.Widget" ".shop.BatchGetWidgetsResponse" true false] }]

def sampleFiles : List File := [timestampFile, wrappersFile, widgetFile]

end

namespace SampleMessage

def fields : SampleMessage → List Schema.Field
  | widget => [
    ⟨"id", "id", 1, .string, .optional, none, none, false⟩,
    ⟨"weight", "weight", 2, .int64, .optional, none, none, false⟩,
    ⟨"sizes", "sizes", 3, .int32, .repeated, none, none, false⟩,
    ⟨"stock", "stock", 4, .message, .repeated, some ".shop.Widget.StockEntry", none, false⟩,
    ⟨"created", "created", 5, .message, .optional, some ".google.protobuf.Timestamp", none, false⟩,
    ⟨"note", "note", 6, .message, .optional, some ".google.protobuf.StringValue", none, false⟩,
    ⟨"name", "name", 7, .string, .optional, none, some 0, false⟩,
    ⟨"count", "count", 8, .int32, .optional, none, some 0, false⟩,
    ⟨"color", "color", 9, .enum, .optional, some ".shop.Color", none, false⟩,
    ⟨"parts", "parts", 10, .message, .repeated, some ".shop.Widget.Part", none, false⟩,
    ⟨"featured", "featured", 11, .bool, .optional, none, some 1, true⟩,
    ⟨"blob", "blob", 12, .bytes, .optional, none, none, false⟩,
    ⟨"serial", "serial", 13, .uint64, .optional, none, none, false⟩,
    ⟨"ratio", "ratio", 14, .double, .optional, none, none, false⟩,
    ⟨"quota", "quota", 15, .message, .optional, some ".google.protobuf.Int64Value", none, false⟩,
    ⟨"display_name", "displayName", 16, .string, .optional, none, none, false⟩]
  | part => [
    ⟨"sku", "sku", 1, .string, .optional, none, none, false⟩,
    ⟨"child", "child", 2, .message, .optional, some ".shop.Widget.Part", none, false⟩]
  | stockEntry => [
    ⟨"key", "key", 1, .string, .optional, none, none, false⟩,
    ⟨"value", "value", 2, .int32, .optional, none, none, false⟩]
  | timestamp => [
    ⟨"seconds", "seconds", 1, .int64, .optional, none, none, false⟩,
    ⟨"nanos", "nanos", 2, .int32, .optional, none, none, false⟩]
  | stringValue => [⟨"value", "value", 1, .string, .optional, none, none, false⟩]
  | int64Value => [⟨"value", "value", 1, .int64, .optional, none, none, false⟩]
  | request => [⟨"ids", "ids", 1, .string, .repeated, none, none, false⟩]
  | response => [⟨"widgets", "widgets", 1, .message, .repeated, some ".shop.Widget", none, false⟩]

def name : SampleMessage → String
  | widget => "Widget"
  | part => "Part"
  | stockEntry => "StockEntry"
  | timestamp => "Timestamp"
  | stringValue => "StringValue"
  | int64Value => "Int64Value"
  | request => "BatchGetWidgetsRequest"
  | response => "BatchGetWidgetsResponse"

-- What the names of the message and of its item begin with.
def scope : SampleMessage → Schema.Scope
  | widget | request | response => ⟨".shop", none⟩
  | part | stockEntry => ⟨".shop.Widget", some "Widget"⟩
  | timestamp | stringValue | int64Value => ⟨".google.protobuf", none⟩

def fullName (k : SampleMessage) : String :=
  k.scope.fullNameOf k.name

def symbol (k : SampleMessage) : String :=
  k.scope.symbolOf k.name

def leaf (k : SampleMessage) : Schema.Message :=
  ⟨k.name, k.fields, [], [], [], k = stockEntry⟩

def schema : SampleMessage → Schema.Message
  | widget => ⟨"Widget", widget.fields, ["label", "_featured"], [stockEntry.leaf, part.leaf], [], false⟩
  | k => k.leaf

theorem fields_schema (k : SampleMessage) : k.schema.fields = k.fields := by
  cases k <;> rfl

end SampleMessage

def timestampSchema : Schema.File where
  name := "google/protobuf/timestamp.proto"
  package := "google.protobuf"
  grammar := .proto3
  enums := []
  messages := [SampleMessage.timestamp.schema]
  services := []

def wrappersSchema : Schema.File where
  name := "google/protobuf/wrappers.proto"
  package := "google.protobuf"
  grammar := .proto3
  enums := []
  messages := [SampleMessage.stringValue.schema, SampleMessage.int64Value.schema]
  services := []

def widgetSchema : Schema.File where
  name := "shop/widget.proto"
  package := "shop"
  grammar := .proto3
  enums := [⟨"Color", [⟨"COLOR_UNSPECIFIED", 0⟩, ⟨"COLOR_RED", 1⟩, ⟨"COLOR_BLUE", 2⟩]⟩]
  messages := [SampleMessage.widget.schema, SampleMessage.request.schema, SampleMessage.response.schema]
  services := [⟨"Widgets", [
    ⟨"BatchGetWidgets", ".shop.BatchGetWidgetsRequest", ".shop.BatchGetWidgetsResponse", false, false⟩,
    ⟨"WatchWidget", ".shop.Widget", ".shop.Widget", false, true⟩,
    ⟨"UploadWidgets", ".shop.Widget", ".shop.BatchGetWidgetsResponse", true, false⟩]⟩]

def sampleSchemas : List Schema.File := [timestampSchema, wrappersSchema, widgetSchema]

def SampleMessage.file : SampleMessage → Schema.File
  | timestamp => timestampSchema
  | stringValue | int64Value => wrappersSchema
  | widget | part | stockEntry | request | response => widgetSchema

set_option maxRecDepth 4000 in
theorem mapM_sampleFiles : sampleFiles.mapM Schema.File.ofDescriptor = .ok sampleSchemas := by rfl

set_option maxRecDepth 4000 in
theorem verify_sampleSchemas : (Index.ofFiles sampleSchemas >>= (Schema.verify · sampleSchemas)) = .ok () := by
  rw [Index.ofFiles]
  simp only [sampleSchemas, List.flatMap_cons, List.flatMap_nil, Schema.File.declarations_eq]
  rfl

theorem groupless_sampleSchemas : ∀ f ∈ sampleSchemas, f.Groupless := by
  simp only [sampleSchemas, List.forall_mem_cons, Schema.File.Groupless, Schema.File.declarations_eq]
  exact ⟨by decide, by decide, by decide, by simp⟩

theorem SampleMessage.declared (k : SampleMessage) : k.file ∈ sampleSchemas ∧
    ⟨k.fullName, k.symbol, .message k.schema⟩ ∈ k.file.declarations := by
  rw [Schema.File.declarations_eq]
  cases k with
  | widget => exact ⟨List.mem_of_getElem? (i := 2) rfl, List.mem_of_getElem? (i := 1) rfl⟩
  | stockEntry => exact ⟨List.mem_of_getElem? (i := 2) rfl, List.mem_of_getElem? (i := 2) rfl⟩
  | part => exact ⟨List.mem_of_getElem? (i := 2) rfl, List.mem_of_getElem? (i := 3) rfl⟩
  | request => exact ⟨List.mem_of_getElem? (i := 2) rfl, List.mem_of_getElem? (i := 4) rfl⟩
  | response => exact ⟨List.mem_of_getElem? (i := 2) rfl, List.mem_of_getElem? (i := 5) rfl⟩
  | timestamp => exact ⟨List.mem_of_getElem? (i := 0) rfl, List.mem_of_getElem? (i := 0) rfl⟩
  | stringValue => exact ⟨List.mem_of_getElem? (i := 1) rfl, List.mem_of_getElem? (i := 0) rfl⟩
  | int64Value => exact ⟨List.mem_of_getElem? (i := 1) rfl, List.mem_of_getElem? (i := 1) rfl⟩

namespace OptionSet

def name : OptionSet → String
  | defaults => "defaults"
  | strings => "strings"
  | bigints => "bigints"
  | minimal => "minimal"

def settings : OptionSet → String
  | defaults => ""
  | strings => "forceLong=string,useDate=date,outputClientImpl=grpc"
  | bigints =>
    "forceLong=bigint,useDate=string,stringEnums=true,jsonEnums=number,oneof=unions,snakeToCamel=false"
  | minimal => "outputJsonMethods=false,outputPartialMethods=false,outputClientImpl=false"

def parameter (S : OptionSet) : String :=
  let root := "moduleRoot=crate::" ++ S.name
  if S.settings.isEmpty then root else S.settings ++ "," ++ root

def options : OptionSet → Options
  | defaults => { moduleRoot := "crate::defaults" }
  | strings => { long := .string, date := .date, client := .grpc, moduleRoot := "crate::strings" }
  | bigints => {
      long := .bigInt, date := .string, stringEnums := true, jsonEnums := .number, choice := .unions
      snakeToCamel := false, moduleRoot := "crate::bigints" }
  | minimal => {
      outputJson := false, outputPartial := false, client := .none, moduleRoot := "crate::minimal" }

set_option maxRecDepth 4000 in
theorem parse_parameter (S : OptionSet) : Options.parse S.parameter = .ok S.options := by
  cases S <;> rfl

end OptionSet

@[reducible] def longForm {W : Type} (o : LongOption) (w : Word W) : LongForm W :=
  match o with
  | .number => .number w
  | .string => .text w
  | .bigInt => .big w

@[reducible] def dateForm (o : DateOption) (L : LongForm Int64) : DateForm L :=
  match o with
  | .timestamp => .timestamp L
  | .date => .moment L
  | .string => .text L

@[reducible] def labelForm : ChoiceOption → LabelForm
  | .properties => .fields
  | .unions => .choice

-- The forms that are asked for. Of the sets that hold colours as variants all write them by number.
@[reducible] def Form.ofOptions (o : Options) : Form where
  signed := longForm o.long .signed
  unsigned := longForm o.long .unsigned
  date := dateForm o.date _
  color := if o.stringEnums then .variant else .number
  label := labelForm o.choice
  displayNameKey := if o.snakeToCamel then "displayName" else "display_name"

theorem OptionSet.form_eq (S : OptionSet) : S.form = .ofOptions S.options := by
  cases S <;> rfl

-- Fields as they are declared and as their codecs have them.

section

variable {F : Form} {g : Schema.Field} {α μ : Type} {c : ValueCodec α} {n : Nat}

/-- The codec reads and writes values of the kind of the field, or messages of its type. They may be held in another
form. -/
inductive Values (F : Form) (g : Schema.Field) : {α : Type} → ValueCodec α → Prop
  | scalar (k : Wire.Kind) (kind : g.kind ≠ .message) (method : g.kind.method = k.method)
      (type : g.kind.wireType = k.wireType) : Values F g k.codec
  | message (k : SampleMessage) (kind : g.kind = .message) (named : g.typeName = some k.fullName) :
      Values F g (.message (k.codec F))
  | via {α β : Type} {c : ValueCodec β} (values : Values F g c) (toWire : α → Except CodecError β)
      (ofWire : β → Except CodecError α) : Values F g (c.via toWire ofWire)

/-- The codec has the number of the field, its values, and as many of them as the field may have. -/
inductive Realizes (F : Form) (g : Schema.Field) : FieldCodec μ → Prop
  | required {α : Type} {n : Nat} {c : ValueCodec α} {isDefault : α → Bool} {get : μ → α} {set : α → μ → μ}
      (number : n = g.number.toInt.toNat) (values : Values F g c) (once : g.isRepeated = false)
      (there : g.hasPresence = false) : Realizes F g (.required n c isDefault get set)
  | optional {α : Type} {n : Nat} {c : ValueCodec α} {get : μ → Option α} {set : α → μ → μ}
      (number : n = g.number.toInt.toNat) (values : Values F g c) (once : g.isRepeated = false)
      (perhaps : g.hasPresence = true) : Realizes F g (.optional n c get set)
  | repeated {α : Type} {n : Nat} {c : ValueCodec α} {get : μ → List α} {add : α → μ → μ}
      (number : n = g.number.toInt.toNat) (values : Values F g c) (many : g.isRepeated = true)
      (apart : g.isRun = false) : Realizes F g (.repeated n c get add)
  | packed {α : Type} {n : Nat} {c : ValueCodec α} {get : μ → List α} {add : α → μ → μ}
      (number : n = g.number.toInt.toNat) (values : Values F g c) (run : g.isRun = true) :
      Realizes F g (.packed n c get add)

theorem Values.ofScalar (k : Wire.Kind) {c : ValueCodec k.Value} (same : c = k.codec) (kind : g.kind ≠ .message)
    (method : g.kind.method = k.method) (type : g.kind.wireType = k.wireType) : Values F g c :=
  same ▸ .scalar k kind method type

theorem Values.number_wireType (values : Values F g c) : c.wireType.number = g.kind.wireNumber := by
  induction values with
  | scalar k kind method type => rw [← Schema.Kind.number_wireType, type]; rfl
  | message k kind named => rw [kind]; rfl
  | via values toWire ofWire ih => exact ih

theorem Values.tag (values : Values F g c) (number : n = g.number.toInt.toNat) (apart : g.isRun = false) :
    FieldCodec.tag n c.wireType = g.tagNumber := by
  rw [FieldCodec.tag, values.number_wireType, number, Schema.Field.tagNumber, Schema.Field.wireNumber, apart]
  rfl

-- Each field of a message has a codec, and there are no others.
theorem SampleMessage.realizes (F : Form) (k : SampleMessage) :
    List.Forall₂ (Realizes F) k.fields (k.codec F).fields := by
  have string {g : Schema.Field} (kind : g.kind = .string) : Values F g .string :=
    .ofScalar .string ValueCodec.string_eq (by simp [kind]) (by rw [kind]; rfl) (by rw [kind]; rfl)
  have int32 {g : Schema.Field} (kind : g.kind = .int32 ∨ g.kind = .enum) : Values F g .int32 := by
    rcases kind with kind | kind
    all_goals exact .ofScalar .int32 ValueCodec.int32_eq (by simp [kind]) (by rw [kind]; rfl) (by rw [kind]; rfl)
  have int64 {g : Schema.Field} (kind : g.kind = .int64) : Values F g (F.signed.codec .signed) :=
    .via (.ofScalar .int64 ValueCodec.int64_eq (by simp [kind]) (by rw [kind]; rfl) (by rw [kind]; rfl)) _ _
  cases k with
  | widget =>
    have uint64 {g : Schema.Field} (kind : g.kind = .uint64) : Values F g (F.unsigned.codec .unsigned) :=
      .via (.ofScalar .uint64 ValueCodec.uint64_eq (by simp [kind]) (by rw [kind]; rfl) (by rw [kind]; rfl)) _ _
    have bool {g : Schema.Field} (kind : g.kind = .bool) : Values F g .bool :=
      .ofScalar .bool ValueCodec.bool_eq (by simp [kind]) (by rw [kind]; rfl) (by rw [kind]; rfl)
    have bytes {g : Schema.Field} (kind : g.kind = .bytes) : Values F g .bytes :=
      .ofScalar .bytes ValueCodec.bytes_eq (by simp [kind]) (by rw [kind]; rfl) (by rw [kind]; rfl)
    have double {g : Schema.Field} (kind : g.kind = .double) : Values F g .double :=
      .ofScalar .double ValueCodec.double_eq (by simp [kind]) (by rw [kind]; rfl) (by rw [kind]; rfl)
    refine .cons (.required rfl (string rfl) rfl rfl) <| .cons (.required rfl (int64 rfl) rfl rfl) <|
      .cons (.packed rfl (int32 (.inl rfl)) rfl) <|
      .cons (.repeated rfl (.message .stockEntry rfl rfl) rfl rfl) <|
      .cons (.optional rfl (.via (.message .timestamp rfl rfl) _ _) rfl rfl) <|
      .cons (.optional rfl (.via (.message .stringValue rfl rfl) _ _) rfl rfl) <|
      .cons (.optional rfl (string rfl) rfl rfl) <| .cons (.optional rfl (int32 (.inl rfl)) rfl rfl) <|
      .cons (.required rfl (.via (int32 (.inr rfl)) _ _) rfl rfl) <|
      .cons (.repeated rfl (.message .part rfl rfl) rfl rfl) <| .cons (.optional rfl (bool rfl) rfl rfl) <|
      .cons (.required rfl (bytes rfl) rfl rfl) <| .cons (.required rfl (uint64 rfl) rfl rfl) <|
      .cons (.required rfl (double rfl) rfl rfl) <|
      .cons (.optional rfl (.via (.message .int64Value rfl rfl) _ _) rfl rfl) <|
      .cons (.required rfl (string rfl) rfl rfl) .nil
  | part =>
    rw [SampleMessage.codec, Part.fields_codec]
    exact .cons (.required rfl (string rfl) rfl rfl) <| .cons (.optional rfl (.message .part rfl rfl) rfl rfl) .nil
  | stockEntry =>
    exact .cons (.required rfl (string rfl) rfl rfl) <| .cons (.required rfl (int32 (.inl rfl)) rfl rfl) .nil
  | timestamp => exact .cons (.required rfl (int64 rfl) rfl rfl) <| .cons (.required rfl (int32 (.inl rfl)) rfl rfl) .nil
  | stringValue => exact .cons (.required rfl (string rfl) rfl rfl) .nil
  | int64Value => exact .cons (.required rfl (int64 rfl) rfl rfl) .nil
  | request => exact .cons (.repeated rfl (string rfl) rfl rfl) .nil
  | response => exact .cons (.repeated rfl (.message .widget rfl rfl) rfl rfl) .nil

-- What a writer is told.

mutual

-- The tree is that of a value of the field.
inductive Stands : Schema.Field → Tree → Prop
  | scalar {g : Schema.Field} (v : Wire.Scalar) (kind : g.kind ≠ .message) (method : g.kind.method = v.kind.method) :
      Stands g (.scalar v)
  | child {g : Schema.Field} {ts : List Tree} (k : SampleMessage) (kind : g.kind = .message)
      (named : g.typeName = some k.fullName) (content : Written k.fields ts) : Stands g (.child ts)

/-- The trees are those of the fields in their order, each value, or each run of values, with a tag in front. -/
inductive Written : List Schema.Field → List Tree → Prop
  | nil : Written [] []
  | done {g : Schema.Field} {gs : List Schema.Field} {ts : List Tree} (rest : Written gs ts) : Written (g :: gs) ts
  | single {g : Schema.Field} {gs : List Schema.Field} {t : Tree} {ts : List Tree} (once : g.isRepeated = false)
      (value : Stands g t) (rest : Written gs ts) : Written (g :: gs) (.varint g.tagNumber :: t :: ts)
  | next {g : Schema.Field} {gs : List Schema.Field} {t : Tree} {ts : List Tree} (many : g.isRepeated = true)
      (apart : g.isRun = false) (value : Stands g t) (rest : Written (g :: gs) ts) :
      Written (g :: gs) (.varint g.tagNumber :: t :: ts)
  | run {g : Schema.Field} {gs : List Schema.Field} {values ts : List Tree} (many : g.isRun = true)
      (each : ∀ t ∈ values, Stands g t) (rest : Written gs ts) :
      Written (g :: gs) (.varint g.tagNumber :: .child values :: ts)

end

-- A message that is written in fewer bytes has those of trees that its fields have.
def PlacedBelow (F : Form) (size : Nat) : Prop :=
  ∀ (k : SampleMessage) (m : k.Carrier F) (bytes : List UInt8), bytes.length < size →
    (k.codec F).write m = .ok bytes → ∃ ts, Written k.fields ts ∧ Tree.bytesOf ts = bytes

variable {size : Nat} {bytes : List UInt8}

theorem Values.stands (values : Values F g c) (below : PlacedBelow F size) {a : α} (written : c.write a = .ok bytes)
    (short : bytes.length ≤ size) : ∃ t, Stands g t ∧ t.bytes = bytes := by
  induction values with
  | scalar k kind method type =>
    cases written
    exact ⟨.scalar ⟨k, a⟩, .scalar ⟨k, a⟩ kind method, rfl⟩
  | message k kind named =>
    obtain ⟨content, inner, written⟩ := ok_of_bind written
    cases written
    -- The length in front takes a byte at least.
    have front := Wire.length_varintBytes_pos content.length
    rw [Wire.Bytes.delimited, List.length_append] at short
    obtain ⟨ts, trees, same⟩ := below k a content (by omega) inner
    exact ⟨.child ts, .child k kind named trees, by rw [Tree.bytes, same]⟩
  | via values toWire ofWire ih =>
    obtain ⟨b, -, written⟩ := ok_of_bind written
    exact ih written

theorem Values.record (values : Values F g c) (below : PlacedBelow F size) (number : n = g.number.toInt.toNat)
    (apart : g.isRun = false) {a : α} (written : FieldCodec.record n c a = .ok bytes) (short : bytes.length ≤ size) :
    ∃ t, Stands g t ∧ Tree.bytesOf [.varint g.tagNumber, t] = bytes := by
  obtain ⟨content, inner, written⟩ := ok_of_bind written
  cases written
  rw [List.length_append] at short
  obtain ⟨t, stands, same⟩ := values.stands below inner (by omega)
  refine ⟨t, stands, ?_⟩
  rw [values.tag number apart, ← same]
  simp only [Tree.bytesOf, Tree.bytes, List.append_nil]

theorem Values.records (values : Values F g c) (below : PlacedBelow F size) (number : n = g.number.toInt.toNat)
    (many : g.isRepeated = true) (apart : g.isRun = false) {as : List α} {records : List (List UInt8)}
    (written : List.Forall₂ (fun a bytes => FieldCodec.record n c a = .ok bytes) as records)
    (short : records.flatten.length ≤ size) {gs : List Schema.Field} {ts : List Tree} (rest : Written gs ts) :
    ∃ front, Written (g :: gs) (front ++ ts) ∧ Tree.bytesOf front = records.flatten := by
  induction written with
  | nil => exact ⟨[], .done rest, rfl⟩
  | cons record _ ih =>
    rw [List.flatten_cons, List.length_append] at short
    obtain ⟨front, later, same⟩ := ih (by omega)
    obtain ⟨t, stands, same'⟩ := values.record below number apart record (by omega)
    refine ⟨.varint g.tagNumber :: t :: front, .next many apart stands later, ?_⟩
    rw [List.flatten_cons, ← same', ← same, ← Tree.bytesOf_append]
    rfl

theorem Values.run (values : Values F g c) (below : PlacedBelow F size) {as : List α} {run : List (List UInt8)}
    (written : List.Forall₂ (fun a bytes => c.write a = .ok bytes) as run) (short : run.flatten.length ≤ size) :
    ∃ ts, (∀ t ∈ ts, Stands g t) ∧ Tree.bytesOf ts = run.flatten := by
  induction written with
  | nil => exact ⟨[], by simp, rfl⟩
  | cons first _ ih =>
    rw [List.flatten_cons, List.length_append] at short
    obtain ⟨ts, each, same⟩ := ih (by omega)
    obtain ⟨t, stands, same'⟩ := values.stands below first (by omega)
    refine ⟨t :: ts, List.forall_mem_cons.2 ⟨stands, each⟩, ?_⟩
    rw [Tree.bytesOf, List.flatten_cons, same, same']

theorem Realizes.written {f : FieldCodec μ} (realizes : Realizes F g f) (below : PlacedBelow F size) {m : μ}
    {records : List (List UInt8)} (written : f.records m = .ok records) (short : records.flatten.length ≤ size)
    {gs : List Schema.Field} {ts : List Tree} (rest : Written gs ts) :
    ∃ front, Written (g :: gs) (front ++ ts) ∧ Tree.bytesOf front = records.flatten := by
  -- Of a field that is no list there is one record, if any.
  have single {α : Type} {c : ValueCodec α} {n : Nat} {a : α} (values : Values F g c)
      (number : n = g.number.toInt.toNat) (once : g.isRepeated = false)
      (written : (do return [← FieldCodec.record n c a]) = .ok records) :
      ∃ front, Written (g :: gs) (front ++ ts) ∧ Tree.bytesOf front = records.flatten := by
    have apart : g.isRun = false := by
      rw [Schema.Field.isRun, once]
      rfl
    obtain ⟨bytes, record, written⟩ := ok_of_bind written
    cases written
    rw [List.flatten_singleton] at short ⊢
    obtain ⟨t, stands, same⟩ := values.record below number apart record short
    exact ⟨_, .single once stands rest, same⟩
  cases realizes with
  | @required _ _ _ isDefault get _ number values once there =>
    change (if isDefault (get m) then _ else _) = _ at written
    split at written
    next =>
      cases written
      exact ⟨[], .done rest, rfl⟩
    next => exact single values number once written
  | @optional _ _ _ get _ number values once perhaps =>
    cases value : get m with
    | none =>
      simp only [FieldCodec.optional, value] at written
      cases written
      exact ⟨[], .done rest, rfl⟩
    | some a =>
      simp only [FieldCodec.optional, value] at written
      exact single values number once written
  | repeated number values many apart =>
    exact values.records below number many apart (forall₂_of_mapM written) short rest
  | @packed _ n _ get _ number values many =>
    change (if (get m).isEmpty then _ else _) = _ at written
    split at written
    next =>
      cases written
      exact ⟨[], .done rest, rfl⟩
    next =>
      obtain ⟨run, inner, written⟩ := ok_of_bind written
      cases written
      rw [List.flatten_singleton, Wire.Bytes.delimited, List.length_append, List.length_append] at short
      obtain ⟨ts', each, same⟩ := values.run below (forall₂_of_mapM inner) (by omega)
      have tag : FieldCodec.tag n .delimited = g.tagNumber := by
        rw [FieldCodec.tag, Schema.Field.tagNumber, Schema.Field.wireNumber, if_pos many, number]
        rfl
      refine ⟨[.varint g.tagNumber, .child ts'], .run many each rest, ?_⟩
      rw [tag, ← same]
      simp only [Tree.bytesOf, Tree.bytes, List.flatten_singleton, List.append_nil]

theorem written_of_records {gs : List Schema.Field} {fs : List (FieldCodec μ)}
    (realizes : List.Forall₂ (Realizes F) gs fs) (below : PlacedBelow F size) {m : μ}
    {records : List (List (List UInt8))} (written : fs.mapM (·.records m) = .ok records)
    (short : records.flatten.flatten.length ≤ size) :
    ∃ ts, Written gs ts ∧ Tree.bytesOf ts = records.flatten.flatten := by
  induction realizes generalizing records with
  | nil =>
    cases written
    exact ⟨[], .nil, rfl⟩
  | cons field _ ih =>
    rw [List.mapM_cons] at written
    obtain ⟨first, here, written⟩ := ok_of_bind written
    obtain ⟨later, there, written⟩ := ok_of_bind written
    cases written
    rw [List.flatten_cons, List.flatten_append] at short ⊢
    rw [List.length_append] at short
    obtain ⟨ts, rest, same⟩ := ih there (by omega)
    obtain ⟨front, all, same'⟩ := field.written below here (by omega) rest
    exact ⟨front ++ ts, all, by rw [Tree.bytesOf_append, same, same']⟩

theorem placedBelow (F : Form) (size : Nat) : PlacedBelow F size := by
  induction size with
  | zero => exact fun _ _ _ short => absurd short (Nat.not_lt_zero _)
  | succ size below =>
    intro k m bytes short written
    obtain ⟨records, inner, written⟩ := ok_of_bind written
    obtain ⟨fields, each, same⟩ := ok_of_bind inner
    cases same
    cases written
    exact written_of_records (k.realizes F) below each (Nat.le_of_lt_succ short)

/-- What is put together from the bytes of the fields is what a writer has once it has been told the values in place,
each child between a fork and a join. -/
theorem encode_in_place (F : Form) (k : SampleMessage) {m : k.Carrier F} {b : ByteArray}
    (encoded : (k.codec F).encode m = .ok b) :
    ∃ ts, Written k.fields ts ∧ (Writer.empty.run (Tree.callsOf ts)).data = b := by
  obtain ⟨bytes, written, encoded⟩ := ok_of_bind encoded
  cases encoded
  obtain ⟨ts, trees, same⟩ := placedBelow F (bytes.length + 1) k m bytes (Nat.lt_succ_self _) written
  have run := (Writer.run_trees .empty ts).1
  rw [Writer.written_empty, List.nil_append, same] at run
  exact ⟨ts, trees, ByteArray.ext (Array.ext' run)⟩

end

-- The generated code.

/-- For each set of options, the item that a message of the schema is mapped to has code for every field of it, which
writes and reads the field in its form on the wire, as the codec of the message does. -/
theorem codec_generated (S : OptionSet) (k : SampleMessage) : ∃ index s,
    Options.parse S.parameter = .ok S.options ∧ S.form = .ofOptions S.options ∧
    indexed sampleFiles = .ok (sampleSchemas, index) ∧ Schema.verify index sampleSchemas = .ok () ∧
    Struct.ofMessage ⟨S.options, index, k.file⟩ k.fullName k.symbol k.schema = .ok s ∧
    List.Forall₂ (fun g c => (∃ form lines body, RecordForm.Of ⟨S.options, index, k.file⟩ g form ∧
        lines <:+: textsOf [encodeFn s] ∧ Writes g.tagNumber form lines ∧
        (armsOf [decodeFn s]).filter (·.1 == armHead g.number) = [(armHead g.number, body)] ∧ Reads form body) ∧
      Realizes S.form g c) k.fields (k.codec S.form).fields := by
  obtain ⟨index, indexes, verified⟩ := ok_of_bind verify_sampleSchemas
  have built : indexed sampleFiles = .ok (sampleSchemas, index) := indexed_eq_ok.2 ⟨mapM_sampleFiles, indexes⟩
  obtain ⟨member, own⟩ := k.declared
  obtain ⟨s, mapped, fields⟩ := Compile.exists_code ⟨S.options, index, k.file⟩
    (Compile.sound_of_indexed built verified groupless_sampleSchemas)
    (Compile.valid_of_declared verified member own rfl) ((groupless_sampleSchemas _ member _ own).fields rfl)
    k.fullName k.symbol
  refine ⟨index, s, S.parse_parameter, S.form_eq, built, verified, mapped, ?_⟩
  rw [k.fields_schema] at fields
  exact (List.forall₂_and_left _ _).2 ⟨fields, k.realizes S.form⟩

section

variable {μ α : Type} {o : Options} {f : Schema.Field} {key : String} {c : JsonCodec α}

/-- The member has the key of the field, and is left out only of objects whose item may lack the field. -/
inductive Shows (g : Target.Field) : JsonField μ → Prop
  | required {α : Type} {c : JsonCodec α} {get : μ → α} {set : α → μ → μ} (there : g.mayBeAbsent = false) :
      Shows g (.required g.jsonKey c get set)
  | optional {α : Type} {c : JsonCodec α} {get : μ → Option α} {set : α → μ → μ} (perhaps : g.mayBeAbsent = true) :
      Shows g (.optional g.jsonKey c get set)

-- The member is that of whatever the field is mapped to.
def Shown (o : Options) (f : Schema.Field) (j : JsonField μ) : Prop :=
  ∀ g : Target.Field, g.Named o f → g.mayBeAbsent = (!f.isRepeated && f.hasPresence) → Shows g j

theorem Shown.required {get : μ → α} {set : α → μ → μ} (keyed : key = if o.snakeToCamel then f.jsonName else f.name)
    (there : (!f.isRepeated && f.hasPresence) = false) : Shown o f (.required key c get set) := by
  intro g named same
  rw [keyed, ← named.jsonKey]
  exact .required (same.trans there)

theorem Shown.optional {get : μ → Option α} {set : α → μ → μ}
    (keyed : key = if o.snakeToCamel then f.jsonName else f.name)
    (perhaps : (!f.isRepeated && f.hasPresence) = true) : Shown o f (.optional key c get set) := by
  intro g named same
  rw [keyed, ← named.jsonKey]
  exact .optional (same.trans perhaps)

end

theorem Widget.shown (S : OptionSet) :
    List.Forall₂ (Shown S.options) SampleMessage.widget.fields (json S.form).fields := by
  have same (key : String) : key = if S.options.snakeToCamel then key else key := (ite_self key).symm
  have displayName : S.form.displayNameKey = if S.options.snakeToCamel then "displayName" else "display_name" :=
    congrArg Form.displayNameKey S.form_eq
  exact .cons (.required (same "id") rfl) <| .cons (.required (same "weight") rfl) <|
    .cons (.required (same "sizes") rfl) <| .cons (.required (same "stock") rfl) <|
    .cons (.optional (same "created") rfl) <| .cons (.optional (same "note") rfl) <|
    .cons (.optional (same "name") rfl) <| .cons (.optional (same "count") rfl) <|
    .cons (.required (same "color") rfl) <| .cons (.required (same "parts") rfl) <|
    .cons (.optional (same "featured") rfl) <| .cons (.required (same "blob") rfl) <|
    .cons (.required (same "serial") rfl) <| .cons (.required (same "ratio") rfl) <|
    .cons (.optional (same "quota") rfl) <| .cons (.required displayName rfl) .nil

/-- The members of a widget in JSON are those of the fields of its item, in their order. -/
theorem json_generated (S : OptionSet) : ∃ index s,
    indexed sampleFiles = .ok (sampleSchemas, index) ∧
    Struct.ofMessage ⟨S.options, index, widgetSchema⟩ ".shop.Widget" "Widget" SampleMessage.widget.schema = .ok s ∧
    List.Forall₂ Shows s.fields (Widget.json S.form).fields := by
  obtain ⟨index, s, -, -, built, -, mapped, -⟩ := codec_generated S .widget
  refine ⟨index, s, built, mapped, ?_⟩
  obtain ⟨fields, each, same⟩ := ok_of_bind mapped
  cases same
  have formed := (forall₂_of_mapM each).imp fun f g success =>
    And.intro (Target.Field.named_ofSchema success) (Target.Field.mayBeAbsent_ofSchema success)
  exact forall₂_comp (fun g f j formed shown => shown g formed.1 formed.2) formed.flip (Widget.shown S)

end Shop

end Protogen
