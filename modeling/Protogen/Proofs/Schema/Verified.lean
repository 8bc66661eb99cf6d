import Mathlib.Tactic.MkIffOfInductiveProp
import Protogen.Proofs.Schema.Index
import Protogen.Schema.Verify

set_option autoImplicit false

namespace Protogen.Schema

variable {index : Index} {name : String} {choices : Nat} {before fields : List Field} {f : Field}

theorem ensure_eq_ok {p : Bool} {fault : SchemaFault} : ensure p fault = .ok () ↔ p = true := by
  cases p <;> simp [ensure]

/-- A field that is sound by itself, whatever the other fields of its message are. -/
@[mk_iff]
structure Field.Valid (index : Index) (choices : Nat) (f : Field) : Prop where
  inRange : fieldNumbers.contains f.number.toInt = true
  unreserved : reservedNumbers.contains f.number.toInt = false
  choice : ∀ i, f.choice = some i → i < choices
  message : f.kind = .message ∨ f.kind = .group → ∃ target m, f.typeName = some target ∧ index.HasMessage target m
  enum : f.kind = .enum → ∃ target e, f.typeName = some target ∧ index.HasEnum target e

namespace Field

theorem verifyType_eq_ok {context : String} : f.verifyType index context = .ok () ↔
    (f.kind = .message ∨ f.kind = .group → ∃ target m, f.typeName = some target ∧ index.HasMessage target m) ∧
      (f.kind = .enum → ∃ target e, f.typeName = some target ∧ index.HasEnum target e) := by
  obtain ⟨_, _, _, kind, _, typeName, _, _⟩ := f
  cases kind <;> cases typeName <;>
    simp [verifyType, bind_eq_ok, Index.message_eq_ok, Index.enum_eq_ok, pure, Except.pure]

theorem verify_eq_ok : f.verify index name choices before = .ok () ↔
    f.Valid index choices ∧ ∀ g ∈ before, g.name ≠ f.name ∧ g.number ≠ f.number := by
  rw [valid_iff]
  -- The checks are made one after the other, in an order that the validity of a field does not keep.
  cases found : f.choice <;>
    simp only [verify, found, check_eq_ok, ensure_eq_ok, verifyType_eq_ok, Bool.not_eq_true', List.any_eq_false,
      beq_iff_eq, decide_eq_true_eq, reduceCtorEq, Option.some.injEq, forall_eq'] <;>
    grind

end Field

theorem verifyFields_eq_ok : verifyFields index name choices before fields = .ok () ↔
    (∀ f ∈ fields, f.Valid index choices) ∧ (∀ f ∈ fields, ∀ g ∈ before, g.name ≠ f.name ∧ g.number ≠ f.number) ∧
      fields.Pairwise fun g f => g.name ≠ f.name ∧ g.number ≠ f.number := by
  induction fields generalizing before with
  | nil => simp [verifyFields]
  | cons f fields ih =>
    simp only [verifyFields, check_eq_ok, Field.verify_eq_ok, ih, List.forall_mem_cons, List.pairwise_cons]
    constructor
    · rintro ⟨⟨valid, apart⟩, others, later, distinct⟩
      exact ⟨⟨valid, others⟩, ⟨apart, fun g member => (later g member).2⟩,
        fun g member => (later g member).1, distinct⟩
    · rintro ⟨⟨valid, others⟩, ⟨apart, later⟩, first, distinct⟩
      exact ⟨⟨valid, apart⟩, others, fun g member => ⟨first g member, later g member⟩, distinct⟩

-- A key and a value, each of them once.
def IsEntry (fields : List Field) : Prop :=
  ∃ key value, fields = [key, value] ∧ key.number = 1 ∧ value.number = 2 ∧ key.kind.isMapKey = true ∧
    key.isRepeated = false ∧ value.isRepeated = false

theorem verifyMapEntry_eq_ok : verifyMapEntry name fields = .ok () ↔ IsEntry fields := by
  match fields with
  | [] | [_] | _ :: _ :: _ :: _ => simp [verifyMapEntry, IsEntry]
  | [key, value] =>
    simp only [verifyMapEntry, check_eq_ok, ensure_eq_ok, IsEntry, List.cons.injEq, and_true, Bool.and_eq_true,
      beq_iff_eq, Bool.not_eq_true']
    constructor
    · rintro ⟨⟨one, two⟩, kind, single⟩
      exact ⟨key, value, ⟨rfl, rfl⟩, one, two, kind, single⟩
    · rintro ⟨_, _, ⟨rfl, rfl⟩, one, two, kind, single⟩
      exact ⟨⟨one, two⟩, kind, single⟩

@[mk_iff]
structure Message.Valid (index : Index) (m : Message) : Prop where
  fields : ∀ f ∈ m.fields, f.Valid index m.choices.length
  distinct : m.fields.Pairwise fun g f => g.name ≠ f.name ∧ g.number ≠ f.number
  entry : m.isMapEntry = true → IsEntry m.fields

def Declared.Valid (index : Index) (d : Declared) : Prop :=
  match d.declaration with
  | .enum e => e.values ≠ []
  | .message m => m.Valid index

theorem Enum.verify_eq_ok {e : Enum} : e.verify name = .ok () ↔ e.values ≠ [] := by
  rw [Enum.verify]
  cases e.values <;> simp

theorem verify_level {s : Scope} (enums : List Enum) {messages : List Message}
    (inside : Message.verifyAll index s.fullName messages = .ok () ↔
      ∀ d ∈ Message.declarationsOf s messages, d.Valid index) :
    (enums.forM (fun e => e.verify (s.fullName ++ "." ++ e.name)) = .ok () ∧
        Message.verifyAll index s.fullName messages = .ok ()) ↔
      ∀ d ∈ enums.map s.declareEnum ++ Message.declarationsOf s messages, d.Valid index := by
  simp only [forM_eq_ok, Enum.verify_eq_ok, inside, List.forall_mem_append, List.forall_mem_map]
  rfl

mutual

theorem Message.verify_eq_ok (s : Scope) (m : Message) :
    m.verify index (s.fullNameOf m.name) = .ok () ↔ ∀ d ∈ m.declarations s, d.Valid index := by
  match m with
  | ⟨name, fields, choices, messages, enums, isMapEntry⟩ =>
    have level := verify_level enums (Message.verifyAll_eq_ok (s.inside name) messages)
    have own : (⟨name, fields, choices, messages, enums, isMapEntry⟩ : Message).Valid index ↔
        verifyFields index (s.fullNameOf name) choices.length [] fields = .ok () ∧
          (isMapEntry = true → verifyMapEntry (s.fullNameOf name) fields = .ok ()) := by
      simp [Message.valid_iff, verifyFields_eq_ok, verifyMapEntry_eq_ok, and_assoc]
    rw [Message.declarations, List.cons_append, List.forall_mem_cons, ← level]
    change _ ↔ Message.Valid index _ ∧ _
    rw [own, Message.verify]
    cases isMapEntry <;> simp [check_eq_ok, and_assoc, Scope.inside]

theorem Message.verifyAll_eq_ok (s : Scope) (ms : List Message) :
    Message.verifyAll index s.fullName ms = .ok () ↔ ∀ d ∈ Message.declarationsOf s ms, d.Valid index := by
  match ms with
  | [] => simp [Message.verifyAll, Message.declarationsOf]
  | m :: ms =>
    rw [Message.verifyAll, check_eq_ok, Message.declarationsOf, List.forall_mem_append]
    exact and_congr (Message.verify_eq_ok s m) (Message.verifyAll_eq_ok s ms)

end

def Method.Valid (index : Index) (m : Method) : Prop :=
  (∃ input, index.HasMessage m.input input) ∧ ∃ output, index.HasMessage m.output output

theorem Service.verify_eq_ok {s : Service} : s.verify index = .ok () ↔ ∀ m ∈ s.methods, m.Valid index := by
  rw [Service.verify, forM_eq_ok]
  simp only [bind_eq_ok, Index.message_eq_ok, Method.Valid, exists_and_right, pure, Except.pure, and_true]

@[mk_iff]
structure File.Valid (index : Index) (f : File) : Prop where
  declarations : ∀ d ∈ f.declarations, d.Valid index
  services : ∀ s ∈ f.services, ∀ m ∈ s.methods, m.Valid index

theorem File.verify_eq_ok {f : File} : f.verify index = .ok () ↔ f.Valid index := by
  have level := verify_level f.enums (@Message.verifyAll_eq_ok index f.topLevel f.messages)
  rw [← File.declarations_eq] at level
  simp only [File.verify, check_eq_ok, forM_eq_ok, Service.verify_eq_ok, File.valid_iff, ← level, and_assoc]
  rfl

theorem verify_eq_ok {files : List File} : verify index files = .ok () ↔ ∀ f ∈ files, f.Valid index := by
  simp only [verify, forM_eq_ok, File.verify_eq_ok]

-- Every message of an index is declared in some file, and has been checked with it.
theorem Index.HasMessage.valid {files : List File} {m : Message} (indexed : index.HasMessage name m)
    (built : Index.ofFiles files = .ok index) (valid : ∀ f ∈ files, f.Valid index) : m.Valid index := by
  obtain ⟨e, found, declared⟩ := indexed
  obtain ⟨f, member, d, own, -, rfl⟩ := (Index.find?_ofFiles built).1 found
  have checked := (valid f member).declarations d own
  rwa [Declared.Valid, show d.declaration = .message m from declared] at checked

end Protogen.Schema
