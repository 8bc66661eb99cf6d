import Protogen.Proofs.Target.Mapping

set_option autoImplicit false

namespace Protogen

namespace Schema

def Kind.wireNumber : Kind → Nat
  | int32 | int64 | uint32 | uint64 | sint32 | sint64 | bool | enum => 0
  | fixed64 | sfixed64 | double => 1
  | string | bytes | message => 2
  | group => 3
  | fixed32 | sfixed32 | float => 5

theorem Kind.number_wireType (k : Kind) : k.wireType.number = k.wireNumber := by
  cases k <;> rfl

namespace Field

-- Whether the values of the field stand one after the other in a single record.
def isRun (f : Field) : Bool :=
  f.isRepeated && f.kind.isPackable

def wireNumber (f : Field) : Nat :=
  if f.isRun then 2 else f.kind.wireNumber

def tagNumber (f : Field) : Nat :=
  8 * f.number.toInt.toNat + f.wireNumber

-- No bits of the tag are lost where the number of the field is one that fields may have.
theorem toNat_tag {f : Field} (inRange : fieldNumbers.contains f.number.toInt = true) {t : Wire.WireType}
    (type : t.number = f.wireNumber) : (f.tag t.number).toNat = f.tagNumber := by
  have low : t.number < 2 ^ 3 := by cases t <;> decide
  obtain ⟨above, below⟩ := Bool.and_eq_true_iff.1 inRange
  have above : 1 ≤ f.number.toInt := of_decide_eq_true above
  have below : f.number.toInt < 536870912 := of_decide_eq_true below
  -- The number is positive, so its bits are the same without a sign, and three more fit in the word.
  have number : f.number.toUInt32.toNat = f.number.toInt.toNat := by
    have value := BitVec.toInt_eq_toNat_cond f.number.toBitVec
    change f.number.toInt = if 2 * f.number.toUInt32.toNat < 2 ^ 32 then (f.number.toUInt32.toNat : Int) else
      f.number.toUInt32.toNat - (2 ^ 32 : Nat) at value
    have size := f.number.toUInt32.toNat_lt
    split at value <;> omega
  have shifted : f.number.toInt.toNat <<< 3 < 2 ^ 32 := by
    rw [Nat.shiftLeft_eq]
    omega
  calc (f.tag t.number).toNat
      = f.number.toInt.toNat <<< 3 % 2 ^ 32 ||| t.number % 2 ^ 32 := by
        rw [tag, UInt32.toNat_or, UInt32.toNat_shiftLeft, UInt32.toNat_ofNat', number]
        rfl
    _ = f.number.toInt.toNat <<< 3 ||| t.number := by
        rw [Nat.mod_eq_of_lt shifted, Nat.mod_eq_of_lt (by omega)]
    _ = f.number.toInt.toNat <<< 3 + t.number := (Nat.shiftLeft_add_eq_or_of_lt low _).symm
    _ = f.tagNumber := by
        rw [Nat.shiftLeft_eq, tagNumber, type]
        omega

end Field

end Schema

namespace Target

/-- How the values of a field stand on the wire, and what in generated code stands for them. -/
inductive RecordForm where
  /-- Each in a record of its own, by a method of readers and writers. -/
  | value (method : String)
  -- One after the other in a single record.
  | run (method : String)
  /-- Each as a message, of the type at the path. -/
  | child (path : String)

/-- The form that a field of a schema has on the wire, with types at the paths where the file sees them. -/
inductive RecordForm.Of (ctx : Context) (f : Schema.Field) : RecordForm → Prop
  | child {target path : String} (kind : f.kind = .message) (named : f.typeName = some target)
      (located : ctx.path target "" = .ok path) : Of ctx f (.child path)
  | run (many : f.isRun = true) : Of ctx f (.run f.kind.method)
  | value (kind : f.kind ≠ .message) (apart : f.isRun = false) : Of ctx f (.value f.kind.method)

namespace Primitive

def method : Primitive → String
  | scalar k | long k _ => k.method
  | enum _ _ _ _ => "int32"

theorem method_ofKind (form : LongOption) (k : Schema.Kind) : (ofKind form k).method = k.method := by
  rw [ofKind]
  split <;> rfl

theorem wireType_ofKind (form : LongOption) (k : Schema.Kind) : (ofKind form k).wireType = k.wireType := by
  rw [ofKind]
  split <;> rfl

theorem isPackable_ofKind (form : LongOption) (k : Schema.Kind) : (ofKind form k).isPackable = k.isPackable := by
  cases k <;> rfl

end Primitive

def Child.path : Child → String
  | message path _ _ | wrapper path _ | timestamp path _ _ => path

namespace Base

def form : Base → RecordForm
  | primitive p => .value p.method
  | child c => .child c.path

def run : Base → RecordForm
  | primitive p => .run p.method
  | child c => .child c.path

def wireType : Base → Wire.WireType
  | primitive p => p.wireType
  | child _ => .delimited

/-- What a type keeps of the kind that a field of a schema has. -/
structure Suits (ctx : Context) (f : Schema.Field) (b : Base) : Prop where
  isPackable : b.isPackable = f.kind.isPackable
  wireType : b.wireType = f.kind.wireType
  primitive : f.kind ≠ .message → ∃ p, b = .primitive p ∧ p.method = f.kind.method
  child : f.kind = .message → ∃ target c, f.typeName = some target ∧ ctx.path target "" = .ok c.path ∧ b = .child c

end Base

variable {ctx : Context} {owner context : String} {f : Schema.Field} {base : Base} {g : Field}

theorem Base.suits_ofField (success : Base.ofField ctx owner f context = .ok base) : base.Suits ctx f := by
  rw [Base.ofField] at success
  split at success
  next => cases success
  next kind =>
    obtain ⟨target, named, success⟩ := ok_of_bind success
    have child (c : Child) (located : ctx.path target "" = .ok c.path) : (Base.child c).Suits ctx f :=
      ⟨by simp [Base.isPackable, kind, Schema.Kind.isPackable], by simp [Base.wireType, kind, Schema.Kind.wireType],
        fun other => absurd kind other, fun _ => ⟨target, c, requireTypeName_eq_ok.1 named, located, rfl⟩⟩
    split at success
    next =>
      obtain ⟨path, located, mapped⟩ := ok_of_bind success
      cases mapped
      exact child _ located
    next =>
      split at success
      next =>
        obtain ⟨path, located, success⟩ := ok_of_bind success
        obtain ⟨partialPath, -, mapped⟩ := ok_of_bind success
        cases mapped
        exact child _ located
      next =>
        obtain ⟨_, -, success⟩ := ok_of_bind success
        obtain ⟨path, located, success⟩ := ok_of_bind success
        obtain ⟨partialPath, -, mapped⟩ := ok_of_bind success
        cases mapped
        exact child _ located
  next kind =>
    obtain ⟨target, -, success⟩ := ok_of_bind success
    obtain ⟨e, -, success⟩ := ok_of_bind success
    split at success
    next => cases success
    next value _ =>
      obtain ⟨path, -, mapped⟩ := ok_of_bind success
      cases mapped
      exact ⟨by rw [kind]; rfl, by rw [kind]; rfl, fun _ => ⟨_, rfl, by rw [kind]; rfl⟩,
        fun message => absurd (kind.symm.trans message) (by decide)⟩
  next noGroup noMessage noEnum =>
    cases success
    exact ⟨Primitive.isPackable_ofKind .., Primitive.wireType_ofKind .., fun _ => ⟨_, rfl, Primitive.method_ofKind ..⟩,
      fun message => absurd message noMessage⟩

theorem Base.Suits.form (suits : base.Suits ctx f) (apart : f.isRun = false) :
    base.form.Of ctx f ∧ base.wireType.number = f.wireNumber := by
  have type : base.wireType.number = f.wireNumber := by
    simp only [suits.wireType, Schema.Kind.number_wireType, Schema.Field.wireNumber, apart, Bool.false_eq_true,
      if_false]
  refine ⟨?_, type⟩
  by_cases kind : f.kind = .message
  next =>
    obtain ⟨target, c, named, located, rfl⟩ := suits.child kind
    exact .child kind named located
  next =>
    obtain ⟨p, rfl, method⟩ := suits.primitive kind
    rw [Base.form, method]
    exact .value kind apart

theorem Base.Suits.run (suits : base.Suits ctx f) (many : f.isRun = true) : base.run.Of ctx f := by
  have packable := (Bool.and_eq_true_iff.1 many).2
  have kind : f.kind ≠ .message := by
    rintro message
    rw [message] at packable
    cases packable
  obtain ⟨p, rfl, method⟩ := suits.primitive kind
  rw [Base.run, method]
  exact .run many

namespace Field

def isRun (g : Field) : Bool :=
  g.container == .repeated && g.base.isPackable

def form (g : Field) : RecordForm :=
  match g.container with
  | .map shape => .child shape.entryPath
  | _ => if g.isRun then g.base.run else g.base.form

def wireType (g : Field) : Wire.WireType :=
  match g.container with
  | .map _ => .delimited
  | _ => if g.isRun then .delimited else g.base.wireType

theorem form_of_apart {g : Field} (single : ∀ shape, g.container ≠ .map shape) (apart : g.isRun = false) :
    g.form = g.base.form := by
  rw [form]
  split
  next shape map => exact absurd map (single shape)
  next => rw [if_neg (by simp [apart])]

theorem wireType_of_apart {g : Field} (single : ∀ shape, g.container ≠ .map shape) (apart : g.isRun = false) :
    g.wireType = g.base.wireType := by
  rw [wireType]
  split
  next shape map => exact absurd map (single shape)
  next => rw [if_neg (by simp [apart])]

structure Formed (ctx : Context) (f : Schema.Field) (g : Field) : Prop where
  schema : g.schema = f
  form : g.form.Of ctx f
  wireType : g.wireType.number = f.wireNumber

theorem formed_plain (success : Field.plain ctx owner f = .ok g) : g.Formed ctx f := by
  obtain ⟨base, mapped, success⟩ := ok_of_bind success
  cases success
  have suits := Base.suits_ofField mapped
  have many : (containerOf ctx f base == .repeated && base.isPackable) = f.isRun := by
    rw [suits.isPackable, Schema.Field.isRun, containerOf]
    grind [singular]
  constructor
  case schema => rfl
  case form =>
    rw [form]
    split
    next shape map => exact absurd map (containerOf_ne_map base shape)
    next =>
      rw [isRun, many]
      split
      next many => exact suits.run many
      next apart => exact (suits.form (by simpa using apart)).1
  case wireType =>
    rw [wireType]
    split
    next shape map => exact absurd map (containerOf_ne_map base shape)
    next =>
      rw [isRun, many]
      split
      next many =>
        rw [Schema.Field.wireNumber, if_pos many]
        rfl
      next apart => exact (suits.form (by simpa using apart)).2

theorem formed_ofSchema (success : Field.ofSchema ctx owner f = .ok g) : g.Formed ctx f := by
  cases Field.mapped_ofSchema success with
  | plain _ success => exact formed_plain success
  | map _ kind named _ _ _ _ located result =>
    subst result
    refine ⟨rfl, .child kind named located, ?_⟩
    simp [wireType, Schema.Field.wireNumber, Schema.Field.isRun, kind, Schema.Kind.isPackable, Schema.Kind.wireNumber,
      Wire.WireType.number]

end Field

theorem Struct.formed_ofMessage {name symbol : String} {m : Schema.Message} {s : Struct}
    (success : Struct.ofMessage ctx name symbol m = .ok s) : List.Forall₂ (Field.Formed ctx) m.fields s.fields := by
  obtain ⟨fields, each, mapped⟩ := ok_of_bind success
  cases mapped
  exact (forall₂_of_mapM each).imp fun _ _ => Field.formed_ofSchema

end Target

end Protogen
