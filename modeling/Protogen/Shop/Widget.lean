import Protogen.Shop.Color
import Protogen.Shop.Label
import Protogen.Shop.Part
import Protogen.WellKnown.Timestamp

set_option autoImplicit false

namespace Protogen.Shop

open Number (Double)
open WellKnown (DateForm Timestamp Wrapper)

/-- The forms that the members of messages are held in, and the one key that they change. -/
structure Form where
  signed : LongForm Int64
  unsigned : LongForm UInt64
  date : DateForm signed
  color : ColorForm
  label : LabelForm
  displayNameKey : String

namespace Form

-- Words, timestamps as they are, enumerations as numbers and choices as fields.
@[reducible] def plain : Form where
  signed := .number .signed
  unsigned := .number .unsigned
  date := .timestamp _
  color := .number
  label := .fields
  displayNameKey := "displayName"

-- Integers as texts and timestamps as moments.
@[reducible] def texts : Form where
  signed := .text .signed
  unsigned := .text .unsigned
  date := .moment _
  color := .number
  label := .fields
  displayNameKey := "displayName"

-- Integers of any size, timestamps as texts, enumerations as variants and choices as one value.
@[reducible] def bigs : Form where
  signed := .big .signed
  unsigned := .big .unsigned
  date := .text _
  color := .variant
  label := .choice
  displayNameKey := "display_name"

end Form

structure Widget (F : Form) where
  id : String
  weight : F.signed.Carrier
  sizes : List Int32
  stock : Dict Int32
  created : Option F.date.Carrier
  note : Option String
  label : F.label.Carrier
  color : F.color.Carrier
  parts : List Part
  featured : Option Bool
  blob : ByteArray
  serial : F.unsigned.Carrier
  ratio : Double
  quota : Option F.signed.Carrier
  displayName : String

structure StockEntry where
  key : String
  value : Int32

namespace StockEntry

def codec : MessageCodec StockEntry where
  base := ⟨"", 0⟩
  fields := [
    .required 1 .string (·.isEmpty) (·.key) fun a e => { e with key := a },
    .required 2 .int32 (· == 0) (·.value) fun a e => { e with value := a }]

def json : JsonMessage StockEntry where
  base := ⟨"", 0⟩
  fields := [
    .required "key" .string (·.key) fun a e => { e with key := a },
    .required "value" .int32 (·.value) fun a e => { e with value := a }]

end StockEntry

namespace Widget

def base (F : Form) : Widget F where
  id := ""
  weight := F.signed.zero
  sizes := []
  stock := .empty
  created := none
  note := none
  label := F.label.none
  color := F.color.base
  parts := []
  featured := none
  blob := .empty
  serial := F.unsigned.zero
  ratio := .zero
  quota := none
  displayName := ""

def fieldCodecs (F : Form) : List (FieldCodec (Widget F)) := [
  .required 1 .string (·.isEmpty) (·.id) fun a w => { w with id := a },
  .required 2 (F.signed.codec .signed) F.signed.isZero (·.weight) fun a w => { w with weight := a },
  .packed 3 .int32 (·.sizes) fun a w => { w with sizes := w.sizes ++ [a] },
  .repeated 4 (.message StockEntry.codec) (fun w => w.stock.entries.map fun e => ⟨e.1, e.2⟩)
    fun e w => { w with stock := w.stock.insert e.key e.value },
  .optional 5 F.date.codec (·.created) fun a w => { w with created := some a },
  .optional 6 (Wrapper.valueCodec Wrapper.string) (·.note) fun a w => { w with note := some a },
  .optional 7 .string (F.label.name? ·.label) fun a w => { w with label := F.label.setName a w.label },
  .optional 8 .int32 (F.label.count? ·.label) fun a w => { w with label := F.label.setCount a w.label },
  .required 9 (ValueCodec.int32.via (fun c => .ok (F.color.toNumber c)) fun n => .ok (F.color.ofNumber n))
    F.color.isBase (·.color) fun a w => { w with color := a },
  .repeated 10 (.message Part.codec) (·.parts) fun a w => { w with parts := w.parts ++ [a] },
  .optional 11 .bool (·.featured) fun a w => { w with featured := some a },
  .required 12 .bytes (·.isEmpty) (·.blob) fun a w => { w with blob := a },
  .required 13 (F.unsigned.codec .unsigned) F.unsigned.isZero (·.serial) fun a w => { w with serial := a },
  .required 14 .double (·.isZero) (·.ratio) fun a w => { w with ratio := a },
  .optional 15 (Wrapper.valueCodec (Wrapper.int64 F.signed)) (·.quota) fun a w => { w with quota := some a },
  .required 16 .string (·.isEmpty) (·.displayName) fun a w => { w with displayName := a }]

def codec (F : Form) : MessageCodec (Widget F) :=
  ⟨base F, fieldCodecs F⟩

def json (F : Form) : JsonMessage (Widget F) where
  base := base F
  fields := [
    .required "id" .string (·.id) fun a w => { w with id := a },
    .required "weight" F.signed.json (·.weight) fun a w => { w with weight := a },
    .required "sizes" (.list .int32) (·.sizes) fun a w => { w with sizes := a },
    .required "stock" (.dict .int32) (·.stock) fun a w => { w with stock := a },
    .optional "created" F.date.json (·.created) fun a w => { w with created := some a },
    .optional "note" .string (·.note) fun a w => { w with note := some a },
    .optional "name" .string (F.label.name? ·.label) fun a w =>
      { w with label := F.label.setName a w.label },
    .optional "count" .int32 (F.label.count? ·.label) fun a w =>
      { w with label := F.label.setCount a w.label },
    .required "color" F.color.json (·.color) fun a w => { w with color := a },
    .required "parts" (.list Part.json) (·.parts) fun a w => { w with parts := a },
    .optional "featured" .bool (·.featured) fun a w => { w with featured := some a },
    .required "blob" .bytes (·.blob) fun a w => { w with blob := a },
    .required "serial" F.unsigned.json (·.serial) fun a w => { w with serial := a },
    .required "ratio" .double (·.ratio) fun a w => { w with ratio := a },
    .optional "quota" F.signed.json (·.quota) fun a w => { w with quota := some a },
    .required F.displayNameKey .string (·.displayName) fun a w => { w with displayName := a }]

end Widget

structure PartialWidget (F : Form) where
  id : Option String
  weight : Option F.signed.Carrier
  sizes : Option (List Int32)
  stock : Option (Dict Int32)
  created : Option F.date.Partial
  note : Option String
  label : F.label.Partial
  color : Option F.color.Carrier
  parts : Option (List PartialPart)
  featured : Option Bool
  blob : Option ByteArray
  serial : Option F.unsigned.Carrier
  ratio : Option Double
  quota : Option F.signed.Carrier
  displayName : Option String

-- A member that is left out is as in the base widget.
def Widget.ofPartial {F : Form} (p : PartialWidget F) : Widget F where
  id := p.id.getD (base F).id
  weight := p.weight.getD (base F).weight
  sizes := p.sizes.getD (base F).sizes
  stock := p.stock.getD (base F).stock
  created := p.created.map F.date.ofPartial
  note := p.note
  label := F.label.ofPartial p.label
  color := p.color.getD (base F).color
  parts := (p.parts.map (·.map Part.ofPartial)).getD (base F).parts
  featured := p.featured
  blob := p.blob.getD (base F).blob
  serial := p.serial.getD (base F).serial
  ratio := p.ratio.getD (base F).ratio
  quota := p.quota
  displayName := p.displayName.getD (base F).displayName

structure WidgetsRequest where
  ids : List String

namespace WidgetsRequest

def codec : MessageCodec WidgetsRequest where
  base := ⟨[]⟩
  fields := [.repeated 1 .string (·.ids) fun a r => ⟨r.ids ++ [a]⟩]

def json : JsonMessage WidgetsRequest where
  base := ⟨[]⟩
  fields := [.required "ids" (.list .string) (·.ids) fun a _ => ⟨a⟩]

end WidgetsRequest

structure WidgetsResponse (F : Form) where
  widgets : List (Widget F)

namespace WidgetsResponse

def codec (F : Form) : MessageCodec (WidgetsResponse F) where
  base := ⟨[]⟩
  fields := [.repeated 1 (.message (Widget.codec F)) (·.widgets) fun a r => ⟨r.widgets ++ [a]⟩]

def json (F : Form) : JsonMessage (WidgetsResponse F) where
  base := ⟨[]⟩
  fields := [.required "widgets" (.list (Widget.json F).codec) (·.widgets) fun a _ => ⟨a⟩]

end WidgetsResponse

end Protogen.Shop
