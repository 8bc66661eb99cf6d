import Protogen.Proofs.Number.IntegerText
import Protogen.Proofs.Schema.Preorder
import Protogen.Proofs.Schema.Verified

set_option autoImplicit false

namespace Protogen.Schema

/-- One of the files declares this, at any level, under this full name. -/
def Declares (files : List File) (name : String) (d : Declaration) : Prop :=
  ∃ f ∈ files, ∃ p ∈ f.preorder, f.fullNameAt p.path = name ∧ p.declaration = d

def IsMessage (files : List File) (name : String) : Prop :=
  ∃ m, Declares files name (.message m)

def IsEnum (files : List File) (name : String) : Prop :=
  ∃ e, Declares files name (.enum e)

@[mk_iff]
structure Field.Consistent (files : List File) (choices : Nat) (f : Field) : Prop where
  inRange : 1 ≤ f.number.toInt ∧ f.number.toInt ≤ 536870911
  unreserved : ¬(19000 ≤ f.number.toInt ∧ f.number.toInt ≤ 19999)
  choice : ∀ i, f.choice = some i → i < choices
  message : f.kind = .message ∨ f.kind = .group → ∃ target, f.typeName = some target ∧ IsMessage files target
  enum : f.kind = .enum → ∃ target, f.typeName = some target ∧ IsEnum files target

def keyKinds : List Kind := [
  .int32, .int64, .uint32, .uint64, .sint32, .sint64, .fixed32, .fixed64, .sfixed32, .sfixed64, .bool, .string]

@[mk_iff]
structure EntryFields (fields : List Field) (key value : Field) : Prop where
  two : fields = [key, value]
  numbers : key.number = 1 ∧ value.number = 2
  single : key.label ≠ .repeated ∧ value.label ≠ .repeated
  kind : key.kind ∈ keyKinds

@[mk_iff]
structure Message.Consistent (files : List File) (m : Message) : Prop where
  fields : ∀ f ∈ m.fields, f.Consistent files m.choices.length
  names : (m.fields.map (·.name)).Nodup
  numbers : (m.fields.map (·.number)).Nodup
  entry : m.isMapEntry = true → ∃ key value, EntryFields m.fields key value

@[mk_iff]
structure File.Consistent (files : List File) (f : File) : Prop where
  enums : ∀ path e, ⟨path, .enum e⟩ ∈ f.preorder → e.values ≠ []
  messages : ∀ path m, ⟨path, .message m⟩ ∈ f.preorder → m.Consistent files
  methods : ∀ s ∈ f.services, ∀ m ∈ s.methods, IsMessage files m.input ∧ IsMessage files m.output

theorem mem_keyKinds {k : Kind} : k ∈ keyKinds ↔ k.isMapKey = true := by
  cases k <;> decide

theorem isEntry_iff {fields : List Field} : IsEntry fields ↔ ∃ key value, EntryFields fields key value := by
  have single (f : Field) : f.isRepeated = false ↔ f.label ≠ .repeated := by
    simp [Field.isRepeated]
  simp only [IsEntry, entryFields_iff, single, mem_keyKinds]
  grind

section

variable {files : List File} {index : Index} (built : Index.ofFiles files = .ok index)

include built

theorem declares_iff {name : String} {d : Declaration} :
    (∃ e, index.find? name = some e ∧ e.declaration = d) ↔ Declares files name d := by
  simp only [Index.find?_eq_some built, walkedEntries, List.mem_flatMap, List.mem_map, Declares]
  constructor
  · rintro ⟨e, ⟨f, member, p, placed, same⟩, declared⟩
    cases same
    exact ⟨f, member, p, placed, rfl, declared⟩
  · rintro ⟨f, member, p, placed, named, declared⟩
    exact ⟨_, ⟨f, member, p, placed, Prod.ext named rfl⟩, declared⟩

theorem hasMessage_iff {name : String} : (∃ m, index.HasMessage name m) ↔ IsMessage files name :=
  exists_congr fun _ => declares_iff built

theorem hasEnum_iff {name : String} : (∃ e, index.HasEnum name e) ↔ IsEnum files name :=
  exists_congr fun _ => declares_iff built

theorem Field.valid_iff_consistent {choices : Nat} {f : Field} :
    f.Valid index choices ↔ f.Consistent files choices := by
  have inRange : fieldNumbers.contains f.number.toInt = true ↔ 1 ≤ f.number.toInt ∧ f.number.toInt ≤ 536870911 := by
    simp only [Number.Range.contains_iff, fieldNumbers]
    omega
  have unreserved : reservedNumbers.contains f.number.toInt = false ↔
      ¬(19000 ≤ f.number.toInt ∧ f.number.toInt ≤ 19999) := by
    rw [← Bool.not_eq_true]
    simp only [Number.Range.contains_iff, reservedNumbers]
    omega
  rw [valid_iff, consistent_iff, inRange, unreserved]
  simp only [← hasMessage_iff built, ← hasEnum_iff built, exists_and_left]

theorem Message.valid_iff_consistent {m : Message} : m.Valid index ↔ m.Consistent files := by
  have distinct : (m.fields.Pairwise fun g f => g.name ≠ f.name ∧ g.number ≠ f.number) ↔
      (m.fields.map (·.name)).Nodup ∧ (m.fields.map (·.number)).Nodup := by
    rw [List.pairwise_and_iff, List.Nodup, List.Nodup, List.pairwise_map, List.pairwise_map]
  rw [valid_iff, consistent_iff, distinct, isEntry_iff]
  simp only [Field.valid_iff_consistent built, and_assoc]

theorem File.valid_iff_consistent {f : File} : f.Valid index ↔ f.Consistent files := by
  have declarations : (∀ d ∈ f.declarations, d.Valid index) ↔
      (∀ path e, ⟨path, .enum e⟩ ∈ f.preorder → e.values ≠ []) ∧
        ∀ path m, ⟨path, .message m⟩ ∈ f.preorder → m.Consistent files := by
    rw [f.declarations_eq_preorder, List.forall_mem_map]
    constructor
    · intro valid
      exact ⟨fun path e placed => valid _ placed, fun path m placed =>
        (Message.valid_iff_consistent built).1 (valid _ placed)⟩
    · intro ⟨enums, messages⟩ p placed
      obtain ⟨path, e | m⟩ := p
      · exact enums path e placed
      · exact (Message.valid_iff_consistent built).2 (messages path m placed)
  rw [valid_iff, consistent_iff, declarations, and_assoc]
  simp only [Method.Valid, hasMessage_iff built]

/-- Nothing is wrong with the files if and only if each of them is consistent, at all levels of nesting. -/
theorem verify_iff_consistent : verify index files = .ok () ↔ ∀ f ∈ files, f.Consistent files := by
  rw [verify_eq_ok]
  exact forall₂_congr fun _ _ => File.valid_iff_consistent built

end

theorem verify_itemFile : (Index.ofFiles [itemFile] >>= (verify · [itemFile])) = .ok () := by
  rw [Index.ofFiles]
  simp only [List.flatMap_cons, List.flatMap_nil, File.declarations_eq]
  rfl

theorem verify_iff_consistent_itemFile : ∃ index, Index.ofFiles [itemFile] = .ok index ∧
    verify index [itemFile] = .ok () ∧ itemFile.Consistent [itemFile] := by
  obtain ⟨index, built, verified⟩ := ok_of_bind verify_itemFile
  exact ⟨index, built, verified, (verify_iff_consistent built).1 verified _ (List.mem_singleton_self _)⟩

end Protogen.Schema
