import Protogen.Proofs.Compile.Generation
import Protogen.Proofs.Reach
import Protogen.Proofs.Target.Forms

set_option autoImplicit false

namespace Protogen

open Relation (ReflTransGen TransGen)

namespace Schema.Index

/-- The indexed message has a field for a single message of the other type. -/
def Leads (index : Index) (name other : String) : Prop :=
  ∃ m, index.HasMessage name m ∧ ∃ f ∈ m.fields, f.kind = .message ∧ f.isRepeated = false ∧ f.typeName = some other

variable {index : Index} {name other owner target : String}

theorem mem_names {e : Entry} (found : index.find? name = some e) : name ∈ index.names :=
  List.mem_map_of_mem (Dict.get?_eq_some_iff.1 found)

theorem mem_children : other ∈ index.children name ↔ index.Leads name other := by
  have fields (m : Message) : other ∈ Message.singularChildren m ↔
      ∃ f ∈ m.fields, f.kind = .message ∧ f.isRepeated = false ∧ f.typeName = some other := by
    simp [Message.singularChildren, and_assoc]
  rw [children, Leads]
  split
  next path file symbol m found =>
    rw [fields]
    constructor
    · intro held
      exact ⟨m, ⟨_, found, rfl⟩, held⟩
    · rintro ⟨m', ⟨e, found', declared⟩, held⟩
      cases found.symm.trans found'
      cases declared
      exact held
  next none =>
    constructor
    · intro member
      cases member
    · rintro ⟨m, ⟨⟨path, file, symbol, declaration⟩, found, declared⟩, _⟩
      cases declared
      exact absurd found (none path file symbol m)

theorem leads_iff : index.Leads name other ↔ name ∈ index.names ∧ other ∈ index.children name := by
  rw [mem_children]
  constructor
  · intro leads
    have ⟨m, ⟨e, found, _⟩, _⟩ := leads
    exact ⟨mem_names found, leads⟩
  · exact And.right

theorem isRecursive_iff : index.isRecursive owner target = true ↔ ReflTransGen index.Leads target owner := by
  rw [isRecursive, List.contains_iff_mem, mem_reachable, reached_iff_path fun _ _ => leads_iff]
  simp

end Schema.Index

namespace Target

open Schema (Index)

variable {ctx : Context} {owner context target : String} {f : Schema.Field} {base : Base} {g : Field}

-- The box of a message is a matter of the field and of the index.
theorem Base.message_ofField (success : Base.ofField ctx owner f context = .ok base) {path partialPath : String}
    {boxed : Bool} (message : base = .child (.message path partialPath boxed)) :
    f.kind = .message ∧ ∃ target, f.typeName = some target ∧
      boxed = (!f.isRepeated && ctx.index.isRecursive owner target) := by
  subst message
  rw [Base.ofField] at success
  split at success
  next => cases success
  next kind =>
    obtain ⟨target, named, success⟩ := ok_of_bind success
    refine ⟨kind, target, requireTypeName_eq_ok.1 named, ?_⟩
    split at success
    next =>
      obtain ⟨_, -, mapped⟩ := ok_of_bind success
      cases mapped
    next =>
      split at success
      next =>
        obtain ⟨_, -, success⟩ := ok_of_bind success
        obtain ⟨_, -, mapped⟩ := ok_of_bind success
        cases mapped
      next =>
        obtain ⟨_, -, success⟩ := ok_of_bind success
        obtain ⟨_, -, success⟩ := ok_of_bind success
        obtain ⟨_, -, mapped⟩ := ok_of_bind success
        cases mapped
        rfl
  next =>
    obtain ⟨_, -, success⟩ := ok_of_bind success
    obtain ⟨_, -, success⟩ := ok_of_bind success
    split at success
    next => cases success
    next =>
      obtain ⟨_, -, mapped⟩ := ok_of_bind success
      cases mapped
  next => cases success

theorem Field.base_plain (success : Field.plain ctx owner f = .ok g) :
    Base.ofField ctx owner f (owner ++ "." ++ f.name) = .ok g.base := by
  obtain ⟨base, mapped, success⟩ := ok_of_bind success
  cases success
  exact mapped

theorem Field.base_ofSchema (success : Field.ofSchema ctx owner f = .ok g) :
    Base.ofField ctx owner f (owner ++ "." ++ f.name) = .ok g.base ∨
      f.isRepeated = true ∧ g.base.isBoxed = false := by
  cases Field.mapped_ofSchema success with
  | plain _ success => exact .inl (base_plain success)
  | @map _ _ _ _ _ _ value repeated _ _ _ _ _ _ _ result =>
    subst result
    refine .inr ⟨repeated, ?_⟩
    rcases value.base with _ | _ | _ | _ <;> rfl

theorem Base.isBoxed_eq_true : base.isBoxed = true ↔ ∃ path partialPath, base = .child (.message path partialPath true) := by
  rcases base with _ | ⟨_, _, _ | _⟩ | _ | _ <;> simp [isBoxed, Child.isBoxed]

theorem Field.recursive_of_isBoxed (success : Field.ofSchema ctx owner f = .ok g) (boxed : g.base.isBoxed = true) :
    f.kind = .message ∧ f.isRepeated = false ∧
      ∃ target, f.typeName = some target ∧ ctx.index.isRecursive owner target = true := by
  rcases base_ofSchema success with mapped | ⟨-, unboxed⟩
  · obtain ⟨path, partialPath, message⟩ := Base.isBoxed_eq_true.1 boxed
    obtain ⟨kind, target, named, flag⟩ := Base.message_ofField mapped message
    obtain ⟨single, recursive⟩ := Bool.and_eq_true_iff.1 flag.symm
    exact ⟨kind, by simpa using single, target, named, recursive⟩
  · rw [unboxed] at boxed
    cases boxed

/-- A message has a single one of the other type in it, with no box around it. -/
def Inline (options : Options) (index : Index) (name other : String) : Prop :=
  ∃ m, index.HasMessage name m ∧ ∃ f ∈ m.fields, f.isRepeated = false ∧ f.typeName = some other ∧
    ∃ file g path partialPath, Field.ofSchema ⟨options, index, file⟩ name f = .ok g ∧
      g.base = .child (.message path partialPath false)

section

variable {options : Options} {index : Index} {name other : String}

theorem Inline.leads (held : Inline options index name other) :
    index.Leads name other ∧ index.isRecursive name other = false := by
  obtain ⟨m, indexed, f, member, single, named, file, g, path, partialPath, success, message⟩ := held
  have mapped := (Field.base_ofSchema success).resolve_right fun many => by simp [single] at many
  obtain ⟨kind, target, named', flag⟩ := Base.message_ofField mapped message
  cases named.symm.trans named'
  rw [single] at flag
  exact ⟨⟨m, indexed, f, member, kind, single, named⟩, flag.symm⟩

-- Any step of a circle closes it again, so it would have been boxed.
theorem not_inline_circle : ¬TransGen (Inline options index) name name := by
  intro circle
  obtain ⟨other, held, rest⟩ := TransGen.head'_iff.1 circle
  obtain ⟨-, free⟩ := held.leads
  have back : ReflTransGen index.Leads other name := rest.lift id fun _ _ held => held.leads.1
  rw [Index.isRecursive_iff.2 back] at free
  cases free

end

theorem Base.gives_message {choices : Nat} (valid : f.Valid ctx.index choices) (kind : f.kind = .message)
    (named : f.typeName = some target) (single : f.isRepeated = false) :
    Gives (Base.ofField ctx owner f context) fun base => wrapped? target = none → target ≠ timestampName →
      ∃ path partialPath, base = .child (.message path partialPath (ctx.index.isRecursive owner target)) := by
  obtain ⟨target', m, named', e, found, declared⟩ := valid.message (.inl kind)
  cases named.symm.trans named'
  simp only [Base.ofField, kind]
  refine (gives_requireTypeName named).bind ?_
  rintro _ rfl
  split
  next wrapped => exact (gives_path found "").bind fun _ _ => .ok fun other => by simp [wrapped] at other
  next =>
    split
    next timestamp =>
      exact (gives_path found "").bind fun _ _ => (gives_path found "Partial").bind fun _ _ =>
        .ok fun _ other => absurd timestamp other
    next =>
      refine Gives.bind (P := (m = ·)) ⟨m, Index.message_eq_ok.2 ⟨e, found, declared⟩, rfl⟩ fun _ _ => ?_
      refine (gives_path found "").bind fun path _ => (gives_path found "Partial").bind fun partialPath _ => .ok ?_
      intro _ _
      exact ⟨path, partialPath, by rw [single]; rfl⟩

theorem Field.gives_message {choices : Nat} (valid : f.Valid ctx.index choices) (kind : f.kind = .message)
    (named : f.typeName = some target) (single : f.isRepeated = false) :
    Gives (Field.ofSchema ctx owner f) fun g => wrapped? target = none → target ≠ timestampName →
      ∃ path partialPath, g.base = .child (.message path partialPath (ctx.index.isRecursive owner target)) := by
  rw [Field.ofSchema, ofSchemaTo_of_single single, Field.plain]
  exact (Base.gives_message valid kind named single).bind fun base boxed => .ok boxed

end Target

namespace Compile

open Schema (Index)
open Target (Field Inline timestampName wrapped?)

/-- The search of an index meets no name twice, and finds an owner if and only if single messages lead there. So no
message has itself in it, however deep, without a box on the way, and a field has a box only where its message leads
back to the owner. Every field of a single message is mapped, and if it is no well-known one that is how its box is
decided. -/
theorem boxed_circles {descriptors : List Descriptor.File} {files : List Schema.File} {index : Index}
    (built : indexed descriptors = .ok (files, index)) (verified : Schema.verify index files = .ok ())
    (options : Options) :
    (∀ (i : Index) (owner target : String), (reachable i.names i.children [target]).Nodup ∧
      (i.isRecursive owner target = true ↔ ReflTransGen i.Leads target owner)) ∧
    (∀ name, ¬TransGen (Inline options index) name name) ∧
    ∀ owner m, index.HasMessage owner m → ∀ f ∈ m.fields, ∀ file,
      (∀ g, Field.ofSchema ⟨options, index, file⟩ owner f = .ok g → g.base.isBoxed = true →
        f.kind = .message ∧ f.isRepeated = false ∧
          ∃ target, f.typeName = some target ∧ ReflTransGen index.Leads target owner) ∧
      (f.kind = .message → f.isRepeated = false →
        ∃ target g, f.typeName = some target ∧ Field.ofSchema ⟨options, index, file⟩ owner f = .ok g ∧
          (wrapped? target = none → target ≠ timestampName →
            ∃ path partialPath boxed, g.base = .child (.message path partialPath boxed) ∧
              (boxed = true ↔ ReflTransGen index.Leads target owner))) := by
  refine ⟨fun i owner target => ⟨nodup_reachable, Index.isRecursive_iff⟩, fun name => Target.not_inline_circle, ?_⟩
  intro owner m indexed f member file
  have valid := (indexed.valid (indexed_eq_ok.1 built).2 (Schema.verify_eq_ok.1 verified)).fields f member
  constructor
  · intro g success boxed
    obtain ⟨kind, single, target, named, recursive⟩ := Field.recursive_of_isBoxed success boxed
    exact ⟨kind, single, target, named, Index.isRecursive_iff.1 recursive⟩
  · intro kind single
    obtain ⟨target, _, named, _⟩ := valid.message (.inl kind)
    obtain ⟨g, success, decided⟩ : Gives (Field.ofSchema ⟨options, index, file⟩ owner f) _ :=
      Field.gives_message valid kind named single
    refine ⟨target, g, named, success, fun other other' => ?_⟩
    obtain ⟨path, partialPath, message⟩ := decided other other'
    exact ⟨path, partialPath, _, message, Index.isRecursive_iff⟩

def rallyFile : Descriptor.File where
  name := some "rally.proto"
  messages := [
    { name := some "Ping"
      fields := [{ name := some "pong", number := some 1, kind := some 11, typeName := some ".Pong" }] },
    { name := some "Pong"
      fields := [{ name := some "ping", number := some 1, kind := some 11, typeName := some ".Ping" }] }]

def pong : Schema.Field :=
  ⟨"pong", "pong", 1, .message, .optional, some ".Pong", none, false⟩

def ping : Schema.Field :=
  ⟨"ping", "ping", 1, .message, .optional, some ".Ping", none, false⟩

def rallySchema : Schema.File where
  name := "rally.proto"
  package := ""
  grammar := .proto2
  enums := []
  messages := [⟨"Ping", [pong], [], [], [], false⟩, ⟨"Pong", [ping], [], [], [], false⟩]
  services := []

theorem verify_rallySchema : (Index.ofFiles [rallySchema] >>= (Schema.verify · [rallySchema])) = .ok () := by
  simp only [Index.ofFiles, List.flatMap_cons, List.flatMap_nil, Schema.File.declarations_eq]
  rfl

theorem boxed_circles_rally : ∃ index, indexed [rallyFile] = .ok ([rallySchema], index) ∧
    Schema.verify index [rallySchema] = .ok () ∧ ¬TransGen (Inline {} index) ".Ping" ".Ping" ∧
    ∃ g path partialPath, Field.ofSchema ⟨{}, index, rallySchema⟩ ".Ping" pong = .ok g ∧
      g.base = .child (.message path partialPath true) := by
  obtain ⟨index, indexes, verified⟩ := ok_of_bind verify_rallySchema
  have built : indexed [rallyFile] = .ok ([rallySchema], index) := indexed_eq_ok.2 ⟨rfl, indexes⟩
  have declared (name : String) (m : Schema.Message) (d : Schema.Declared) (own : d ∈ rallySchema.declarations)
      (same : d.fullName = name ∧ d.declaration = .message m) : index.HasMessage name m :=
    ⟨_, (Index.find?_ofFiles indexes).2 ⟨_, List.mem_singleton_self _, d, own, same.1, rfl⟩, same.2⟩
  have pings : index.HasMessage ".Ping" ⟨"Ping", [pong], [], [], [], false⟩ := by
    refine declared _ _ ⟨".Ping", "Ping", _⟩ ?_ ⟨rfl, rfl⟩
    rw [Schema.File.declarations_eq]
    exact List.mem_cons_self ..
  have pongs : index.HasMessage ".Pong" ⟨"Pong", [ping], [], [], [], false⟩ := by
    refine declared _ _ ⟨".Pong", "Pong", _⟩ ?_ ⟨rfl, rfl⟩
    rw [Schema.File.declarations_eq]
    exact List.mem_cons_of_mem _ (List.mem_cons_self ..)
  obtain ⟨-, free, fields⟩ := boxed_circles built verified {}
  obtain ⟨-, mapped⟩ := fields _ _ pings pong (List.mem_singleton_self _) rallySchema
  obtain ⟨_, g, named, success, decided⟩ := mapped rfl rfl
  cases named
  obtain ⟨path, partialPath, boxed, message, box⟩ := decided rfl (by decide)
  have back : index.Leads ".Pong" ".Ping" := ⟨_, pongs, ping, List.mem_singleton_self _, rfl, rfl, rfl⟩
  rw [box.2 (.single back)] at message
  exact ⟨index, built, verified, free _, g, path, partialPath, success, message⟩

end Compile

end Protogen
