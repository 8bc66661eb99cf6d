import Protogen.Proofs.Codec.Length
import Protogen.Proofs.Dict
import Protogen.Proofs.Shop.Form
import Protogen.Proofs.Shop.Part
import Protogen.Proofs.WellKnown.Long
import Protogen.Shop.Widget

set_option autoImplicit false

namespace Protogen.Shop

-- The stock travels as its entries, in the order of their keys, and is put together again from them.

namespace StockEntry

open Wire.Read (Ensures)

variable {depth : Nat}

theorem numbered : codec.Numbered :=
  .of_numbers [1, 2] rfl (by decide) (by decide)

theorem local_codec : codec.Local := by
  simp only [MessageCodec.Local, codec, List.forall_mem_cons]
  exact ⟨FieldCodec.local_required Wire.Read.confined_string,
    FieldCodec.local_required Wire.Read.confined_int32, by simp⟩

theorem carries_message (shallow : depth < Wire.recursionLimit) (e : StockEntry) :
    (ValueCodec.message codec).Carries depth e e := by
  have delivers : MessageCodec.Delivers (depth + 1) e codec.fields codec.base e :=
    .cons
      (FieldCodec.delivers_value (fun empty => by rw [String.isEmpty_iff.1 empty]; rfl)
        (ValueCodec.carries_string (depth + 1) e.key))
      (.cons
        (FieldCodec.delivers_value (fun zero => by rw [eq_of_beq zero]; rfl)
          (ValueCodec.carries_int32 (depth + 1) e.value))
        (.nil e))
  exact MessageCodec.carries_message numbered shallow delivers

theorem keeps_key (depth : Nat) : codec.Keeps depth fun n e => e.key.utf8ByteSize ≤ n where
  more fewer short := Nat.le_trans short fewer
  field := by
    simp only [codec, List.forall_mem_cons]
    refine ⟨?_, ?_, by simp⟩
    · intro tag n e _
      refine (Wire.Read.ensures_string depth).map _ ?_
      rintro bytes key ⟨-, long⟩
      dsimp only
      omega
    · intro tag n e short
      refine (Wire.Read.confined_int32 depth).map _ fun bytes value _ => ?_
      dsimp only
      omega

theorem ensures_message (depth : Nat) :
    Ensures (ValueCodec.message codec).read depth fun bytes e => e.key.utf8ByteSize ≤ bytes.length := by
  have start : codec.base.key.utf8ByteSize ≤ 0 := by decide
  refine (MessageCodec.ensures_message local_codec (keeps_key (depth + 1)) start).weaken ?_
  rintro bytes e ⟨-, n, long, short⟩
  omega

theorem bounded_message {e : StockEntry} {n : Nat} (short : e.key.utf8ByteSize ≤ n)
    (small : n < 2147483648) : (ValueCodec.message codec).Bounded e (2 * (n + 15) + 5) := by
  refine MessageCodec.bounded_message (n := n + 15) ?_ (by simp [codec]; omega)
  simp only [codec, List.forall_mem_cons]
  refine ⟨FieldCodec.bounded_required (by decide) ?_, FieldCodec.bounded_required (by decide) ?_, by simp⟩
  · intro bytes write
    have := ValueCodec.bounded_string short (by omega) bytes write
    omega
  · intro bytes write
    have := ValueCodec.bounded_int32 _ bytes write
    omega

end StockEntry

namespace Widget

open Wire.Read (Ensures Confined)
open WellKnown (DateForm Wrapper)

variable {F : Form}

theorem numbers (F : Form) : (fieldCodecs F).map (·.number) = List.range' 1 16 := rfl

theorem numbered (F : Form) : (codec F).Numbered :=
  .of_numbers (List.range' 1 16) (numbers F) (by decide) List.nodup_range'

theorem local_codec (F : Form) : (codec F).Local := by
  simp only [MessageCodec.Local, codec, fieldCodecs, List.forall_mem_cons]
  refine ⟨?id, ?weight, ?sizes, ?stock, ?created, ?note, ?name, ?count, ?color, ?parts, ?featured, ?blob,
    ?serial, ?ratio, ?quota, ?displayName, by simp⟩
  case id => exact FieldCodec.local_required Wire.Read.confined_string
  case weight => exact FieldCodec.local_required (LongForm.confined_codec Word.lawful_signed)
  case sizes => exact FieldCodec.local_packed Wire.Read.confined_int32
  case stock => exact FieldCodec.local_repeated (MessageCodec.confined_message StockEntry.local_codec)
  case created => exact FieldCodec.local_optional (DateForm.confined_codec F.date)
  case note => exact FieldCodec.local_optional (Wrapper.confined_valueCodec Wire.Read.confined_string)
  case name => exact FieldCodec.local_optional Wire.Read.confined_string
  case count => exact FieldCodec.local_optional Wire.Read.confined_int32
  case color => exact FieldCodec.local_required (ValueCodec.confined_via _ _ Wire.Read.confined_int32)
  case parts =>
    exact FieldCodec.local_repeated (MessageCodec.confined_message (Part.local_codecTo Wire.recursionLimit))
  case featured => exact FieldCodec.local_optional Wire.Read.confined_bool
  case blob => exact FieldCodec.local_required Wire.Read.confined_bytes
  case serial => exact FieldCodec.local_required (LongForm.confined_codec Word.lawful_unsigned)
  case ratio => exact FieldCodec.local_required Wire.Read.confined_double
  case quota =>
    exact FieldCodec.local_optional
      (Wrapper.confined_valueCodec (LongForm.confined_codec Word.lawful_signed))
  case displayName => exact FieldCodec.local_required Wire.Read.confined_string

/-- A widget whose members the wire can carry without loss, a zero with a sign apart. -/
structure Canonical (w : Widget F) : Prop where
  weight : F.signed.Canonical w.weight
  created : ∀ a, w.created = some a → F.date.Canonical a
  label : F.label.Exclusive w.label
  parts : ∀ p ∈ w.parts, p.height ≤ 100
  serial : F.unsigned.Canonical w.serial
  quota : ∀ a, w.quota = some a → F.signed.Canonical a

-- The widget as it is read back: zero has lost its sign.
def asRead (w : Widget F) : Widget F :=
  { w with ratio := if w.ratio.isZero then .zero else w.ratio }

-- The fields whose records do not simply set a member.

def sizesField : FieldCodec (Widget F) :=
  .packed 3 .int32 (·.sizes) fun a w => { w with sizes := w.sizes ++ [a] }

def stockField : FieldCodec (Widget F) :=
  .repeated 4 (.message StockEntry.codec) (fun w => w.stock.entries.map fun e => ⟨e.1, e.2⟩)
    fun e w => { w with stock := w.stock.insert e.key e.value }

def nameField : FieldCodec (Widget F) :=
  .optional 7 .string (F.label.name? ·.label) fun a w => { w with label := F.label.setName a w.label }

def countField : FieldCodec (Widget F) :=
  .optional 8 .int32 (F.label.count? ·.label) fun a w => { w with label := F.label.setCount a w.label }

def partsField : FieldCodec (Widget F) :=
  .repeated 10 (.message Part.codec) (·.parts) fun a w => { w with parts := w.parts ++ [a] }

theorem foldl_member {σ α β : Type} (get : σ → β) (set : σ → β → σ) (get_set : ∀ s b, get (set s b) = b)
    (set_get : ∀ s, set s (get s) = s) (set_set : ∀ s b b', set (set s b) b' = set s b')
    (step : β → α → β) (as : List α) (s : σ) :
    as.foldl (fun s a => set s (step (get s) a)) s = set s (as.foldl step (get s)) := by
  induction as generalizing s with
  | nil => exact (set_get s).symm
  | cons a as ih => rw [List.foldl_cons, ih, get_set, set_set, List.foldl_cons]

theorem foldl_snoc {α : Type} (front back : List α) :
    back.foldl (fun as a => as ++ [a]) front = front ++ back := by
  induction back generalizing front with
  | nil => simp
  | cons a back ih => simp [ih]

theorem foldl_sizes (sizes : List Int32) (w : Widget F) :
    sizes.foldl (fun w a => { w with sizes := w.sizes ++ [a] }) w = { w with sizes := w.sizes ++ sizes } := by
  have added := foldl_member Widget.sizes (fun (w : Widget F) a => { w with sizes := a })
    (fun _ _ => rfl) (fun _ => rfl) (fun _ _ _ => rfl) (fun as a => as ++ [a]) sizes w
  rwa [foldl_snoc] at added

def onto (w x : Widget F) : Widget F where
  id := if w.id.isEmpty then x.id else w.id
  weight := if F.signed.isZero w.weight then x.weight else w.weight
  sizes := x.sizes ++ w.sizes
  stock := w.stock.onto x.stock
  created := w.created.or x.created
  note := w.note.or x.note
  label := F.label.onto w.label x.label
  color := if F.color.isBase w.color then x.color else w.color
  parts := x.parts ++ w.parts
  featured := w.featured.or x.featured
  blob := if w.blob.isEmpty then x.blob else w.blob
  serial := if F.unsigned.isZero w.serial then x.serial else w.serial
  ratio := if w.ratio.isZero then x.ratio else w.ratio
  quota := w.quota.or x.quota
  displayName := if w.displayName.isEmpty then x.displayName else w.displayName

section Delivery

variable {depth : Nat} {w m : Widget F}

theorem delivers_sizes : sizesField.Delivers depth w m { m with sizes := m.sizes ++ w.sizes } := by
  have delivers : sizesField.Delivers depth w m _ :=
    FieldCodec.delivers_packed Wire.Read.confined_int32 fun a _ => ValueCodec.carries_int32 depth a
  rwa [foldl_sizes] at delivers

theorem delivers_stock (shallow : depth < Wire.recursionLimit) :
    stockField.Delivers depth w m { m with stock := w.stock.onto m.stock } := by
  have delivers : stockField.Delivers depth w m _ :=
    FieldCodec.delivers_repeated fun e _ => StockEntry.carries_message shallow e
  have folded := foldl_member Widget.stock (fun w a => { w with stock := a })
    (fun _ _ => rfl) (fun _ => rfl) (fun _ _ _ => rfl) (fun d (e : StockEntry) => d.insert e.key e.value)
    (w.stock.entries.map fun e => ⟨e.1, e.2⟩) m
  have written : (w.stock.entries.map fun e => StockEntry.mk e.1 e.2).foldl
      (fun d e => d.insert e.key e.value) m.stock = w.stock.onto m.stock := List.foldl_map
  rw [written] at folded
  rwa [folded] at delivers

theorem delivers_parts (low : ∀ p ∈ w.parts, depth + p.height ≤ 100) :
    partsField.Delivers depth w m { m with parts := m.parts ++ w.parts } := by
  have delivers : partsField.Delivers depth w m _ :=
    FieldCodec.delivers_repeated fun p member => Part.carries_codec (low p member)
  have folded := foldl_member Widget.parts (fun w a => { w with parts := a })
    (fun _ _ => rfl) (fun _ => rfl) (fun _ _ _ => rfl) (fun as a => as ++ [a]) w.parts m
  rw [foldl_snoc] at folded
  rwa [folded] at delivers

theorem delivers_label {fields : List (FieldCodec (Widget F))} {m' : Widget F} (lawful : F.label.Lawful)
    (exclusive : F.label.Exclusive w.label)
    (rest : MessageCodec.Delivers depth w fields { m with label := F.label.onto w.label m.label } m') :
    MessageCodec.Delivers depth w (nameField :: countField :: fields) m m' := by
  obtain ⟨l, noName, name, noCount, count⟩ := lawful.steps_onto exclusive m.label
  refine .through { m with label := l } (FieldCodec.delivers_optional ?_ ?_)
    (.cons (FieldCodec.delivers_optional ?_ ?_) rest)
  · intro absent
    rw [noName absent]
  · intro s present
    refine ⟨s, ValueCodec.carries_string depth s, ?_⟩
    rw [name s present]
  · intro absent
    rw [noCount absent]
  · intro n present
    refine ⟨n, ValueCodec.carries_int32 depth n, ?_⟩
    rw [count n present]

-- What is written of a canonical widget is read onto the one that is there.
theorem delivers_onto (lawful : F.Lawful) (shallow : depth < Wire.recursionLimit) (canonical : w.Canonical)
    (low : ∀ p ∈ w.parts, depth + p.height ≤ 100) (x : Widget F) :
    MessageCodec.Delivers depth w (fieldCodecs F) x (w.onto x) := by
  -- One step for each field in the order of the numbers: its member is written over, and no other.
  refine .cons (FieldCodec.delivers_unless rfl fun _ => ValueCodec.carries_string depth w.id) ?_
  refine .cons (FieldCodec.delivers_unless rfl fun _ =>
    LongForm.carries_codec Word.lawful_signed lawful.signed depth canonical.weight) ?_
  refine .cons delivers_sizes (.cons (delivers_stock shallow) ?_)
  refine .cons (FieldCodec.delivers_member (fun a (w : Widget F) => { w with created := a }) rfl
    fun a present => DateForm.carries_codec lawful.signed shallow (canonical.created a present)) ?_
  refine .cons (FieldCodec.delivers_member (fun a (w : Widget F) => { w with note := a }) rfl fun s _ =>
    Wrapper.carries_valueCodec shallow String.isEmpty_iff.1 (ValueCodec.carries_string (depth + 1) s)) ?_
  refine delivers_label lawful.label canonical.label ?_
  refine .cons (FieldCodec.delivers_unless rfl fun _ =>
    (ValueCodec.carries_int32 depth _).via rfl (by rw [lawful.color.ofNumber_toNumber])) ?_
  refine .cons (delivers_parts low) ?_
  refine .cons (FieldCodec.delivers_member (fun a (w : Widget F) => { w with featured := a }) rfl
    fun b _ => ValueCodec.carries_bool depth b) ?_
  refine .cons (FieldCodec.delivers_unless rfl fun _ => ValueCodec.carries_bytes depth w.blob) ?_
  refine .cons (FieldCodec.delivers_unless rfl fun _ =>
    LongForm.carries_codec Word.lawful_unsigned lawful.unsigned depth canonical.serial) ?_
  refine .cons (FieldCodec.delivers_unless rfl fun _ => ValueCodec.carries_double depth w.ratio) ?_
  refine .cons (FieldCodec.delivers_member (fun a (w : Widget F) => { w with quota := a }) rfl
    fun a present => ?_) ?_
  · have held := canonical.quota a present
    exact Wrapper.carries_valueCodec shallow (LongForm.eq_zero lawful.signed held)
      (LongForm.carries_codec Word.lawful_signed lawful.signed (depth + 1) held)
  exact .cons (FieldCodec.delivers_unless rfl fun _ => ValueCodec.carries_string depth w.displayName) (.nil _)

end Delivery

theorem eq_empty {b : ByteArray} (empty : b.isEmpty = true) : b = .empty := by
  have size : b.size = 0 := eq_of_beq empty
  exact ByteArray.size_eq_zero_iff.1 size

-- The widget with its members up to a field number, and no others.
def upTo (n : Nat) (w : Widget F) : Widget F where
  id := if 1 ≤ n then w.id else ""
  weight := if 2 ≤ n then w.weight else F.signed.zero
  sizes := if 3 ≤ n then w.sizes else []
  stock := if 4 ≤ n then w.stock else .empty
  created := if 5 ≤ n then w.created else none
  note := if 6 ≤ n then w.note else none
  label := if 8 ≤ n then w.label else F.label.none
  color := if 9 ≤ n then w.color else F.color.base
  parts := if 10 ≤ n then w.parts else []
  featured := if 11 ≤ n then w.featured else none
  blob := if 12 ≤ n then w.blob else .empty
  serial := if 13 ≤ n then w.serial else F.unsigned.zero
  ratio := if 14 ≤ n then w.asRead.ratio else .zero
  quota := if 15 ≤ n then w.quota else none
  displayName := if 16 ≤ n then w.displayName else ""

theorem if_default {α : Type} {isDefault : α → Bool} {base a : α} (default : isDefault a = true → a = base) :
    (if isDefault a then base else a) = a := by
  split
  next elided => exact (default elided).symm
  next => rfl

-- Onto a widget with nothing in it, one is read as it was written.
theorem onto_base (lawful : F.Lawful) {w : Widget F} (canonical : w.Canonical) :
    w.onto (base F) = w.asRead := by
  simp only [onto, base, asRead, if_default String.isEmpty_iff.1, if_default eq_empty,
    if_default (LongForm.eq_zero lawful.signed canonical.weight),
    if_default (LongForm.eq_zero lawful.unsigned canonical.serial),
    if_default (lawful.color.eq_base w.color), List.nil_append, Dict.onto_empty, Option.or_none,
    lawful.label.onto_none]

theorem delivers (lawful : F.Lawful) {w : Widget F} (canonical : w.Canonical) :
    MessageCodec.Delivers 0 w (fieldCodecs F) (w.upTo 0) (w.upTo 16) := by
  have low : ∀ p ∈ w.parts, 0 + p.height ≤ 100 := by
    simpa only [Nat.zero_add] using canonical.parts
  have delivers := delivers_onto lawful (by decide) canonical low (base F)
  rw [onto_base lawful canonical] at delivers
  exact delivers

end Widget

end Protogen.Shop
