import Protogen.Proofs.Dict
import Protogen.Proofs.Except
import Protogen.Schema.Index

set_option autoImplicit false

namespace Protogen.Schema

def Declared.entry (d : Declared) (file : File) : Entry :=
  ⟨Naming.modulePath file.name, file.name, d.symbol, d.declaration⟩

namespace Index

variable {index index' : Index} {files : List File} {file : File} {d : Declared} {name context : String}

theorem declare_eq_ok : index.declare file d = .ok index' ↔
    index.find? d.fullName = none ∧ index' = ⟨index.entries.insert d.fullName (d.entry file)⟩ := by
  rw [declare, find?]
  by_cases taken : (index.entries.get? d.fullName).isSome = true
  · rw [if_pos taken]
    refine ⟨nofun, fun ⟨free, _⟩ => ?_⟩
    rw [free] at taken
    cases taken
  · rw [if_neg taken]
    have free : index.entries.get? d.fullName = none := by simpa using taken
    simp only [free, Except.ok.injEq, true_and]
    exact eq_comm

theorem find?_insert (e : Entry) :
    find? ⟨index.entries.insert d.fullName e⟩ name = if d.fullName = name then some e else index.find? name :=
  Dict.get?_insert ..

theorem foldlM_declare {declared : List (File × Declared)}
    (built : declared.foldlM (fun index fd => index.declare fd.1 fd.2) index = .ok index') :
    (declared.map (·.2.fullName)).Nodup ∧ (∀ fd ∈ declared, index.find? fd.2.fullName = none) ∧
      ∀ name e, index'.find? name = some e ↔
        index.find? name = some e ∨ ∃ fd ∈ declared, fd.2.fullName = name ∧ fd.2.entry fd.1 = e := by
  induction declared generalizing index with
  | nil =>
    cases built
    simp
  | cons fd declared ih =>
    obtain ⟨next, first, rest⟩ := ok_of_bind built
    obtain ⟨free, rfl⟩ := declare_eq_ok.1 first
    obtain ⟨distinct, unused, found⟩ := ih rest
    -- A name that is free after the first declaration is not its name, and was free before it.
    have other : ∀ fd' ∈ declared, fd.2.fullName ≠ fd'.2.fullName ∧ index.find? fd'.2.fullName = none := by
      intro fd' member
      have missing := unused fd' member
      rw [find?_insert] at missing
      by_cases same : fd.2.fullName = fd'.2.fullName <;> simp_all
    refine ⟨?_, ?_, fun name e => ?_⟩
    · rw [List.map_cons, List.nodup_cons]
      refine ⟨fun member => ?_, distinct⟩
      obtain ⟨fd', member, same⟩ := List.mem_map.1 member
      exact (other fd' member).1 same.symm
    · exact List.forall_mem_cons.2 ⟨free, fun fd' member => (other fd' member).2⟩
    · rw [found, find?_insert]
      by_cases same : fd.2.fullName = name
      · subst same
        simp [free]
      · simp [same]

theorem mem_declared {fd : File × Declared} :
    fd ∈ (files.flatMap fun f => f.declarations.map fun d => (f, d)) ↔ fd.1 ∈ files ∧ fd.2 ∈ fd.1.declarations := by
  obtain ⟨f, d⟩ := fd
  simp only [List.mem_flatMap, List.mem_map, Prod.mk.injEq]
  constructor
  · rintro ⟨_, member, _, declared, rfl, rfl⟩
    exact ⟨member, declared⟩
  · rintro ⟨member, declared⟩
    exact ⟨f, member, d, declared, rfl, rfl⟩

theorem find?_ofFiles (built : ofFiles files = .ok index) {e : Entry} :
    index.find? name = some e ↔ ∃ file ∈ files, ∃ d ∈ file.declarations, d.fullName = name ∧ d.entry file = e := by
  -- Nothing is found before the first declaration.
  have empty : Index.empty.find? name = none := rfl
  rw [(foldlM_declare built).2.2, empty]
  simp only [mem_declared, reduceCtorEq, false_or, Prod.exists]
  constructor
  · rintro ⟨file, d, ⟨member, declared⟩, found⟩
    exact ⟨file, member, d, declared, found⟩
  · rintro ⟨file, member, d, declared, found⟩
    exact ⟨file, d, ⟨member, declared⟩, found⟩

theorem nodup_ofFiles (built : ofFiles files = .ok index) (member : file ∈ files) :
    (file.declarations.map (·.fullName)).Nodup := by
  have distinct := (foldlM_declare built).1
  rw [List.map_flatMap] at distinct
  have own := (List.pairwise_flatMap.1 distinct).1 file member
  rwa [List.map_map] at own

theorem declare_swap {fd fd' : File × Declared} {next : Index} (first : index.declare fd.1 fd.2 = .ok next)
    (second : next.declare fd'.1 fd'.2 = .ok index') :
    ∃ next', index.declare fd'.1 fd'.2 = .ok next' ∧ next'.declare fd.1 fd.2 = .ok index' := by
  obtain ⟨free, rfl⟩ := declare_eq_ok.1 first
  obtain ⟨free', rfl⟩ := declare_eq_ok.1 second
  rw [find?_insert] at free'
  by_cases same : fd.2.fullName = fd'.2.fullName
  next => simp [same] at free'
  next =>
    rw [if_neg same] at free'
    refine ⟨_, declare_eq_ok.2 ⟨free', rfl⟩, declare_eq_ok.2 ⟨?_, ?_⟩⟩
    · rw [find?_insert, if_neg (Ne.symm same), free]
    · rw [Dict.insert_comm (Ne.symm same)]

theorem ofFiles_of_perm {files' : List File} (perm : files.Perm files') (built : ofFiles files = .ok index) :
    ofFiles files' = .ok index := by
  refine foldlM_of_perm ?_ (perm.flatMap_right _) built
  exact fun _ _ _ _ _ => declare_swap

def HasMessage (index : Index) (name : String) (m : Message) : Prop :=
  ∃ e, index.find? name = some e ∧ e.declaration = .message m

def HasEnum (index : Index) (name : String) (e : Enum) : Prop :=
  ∃ entry, index.find? name = some entry ∧ entry.declaration = .enum e

theorem HasMessage.unique {m m' : Message} (indexed : index.HasMessage name m) (indexed' : index.HasMessage name m') :
    m = m' := by
  obtain ⟨e, found, declared⟩ := indexed
  obtain ⟨e', found', declared'⟩ := indexed'
  cases found.symm.trans found'
  exact Declaration.message.inj (declared.symm.trans declared')

theorem message_eq_ok {m : Message} : index.message name context = .ok m ↔ index.HasMessage name m := by
  rw [message, get, HasMessage]
  cases index.find? name with
  | none => exact ⟨nofun, nofun⟩
  | some e =>
    obtain ⟨path, file, symbol, declaration⟩ := e
    cases declaration <;> simp [bind, Except.bind, pure, Except.pure, throw, throwThe, MonadExceptOf.throw]

theorem enum_eq_ok {e : Enum} : index.enum name context = .ok e ↔ index.HasEnum name e := by
  rw [enum, get, HasEnum]
  cases index.find? name with
  | none => exact ⟨nofun, nofun⟩
  | some entry =>
    obtain ⟨path, file, symbol, declaration⟩ := entry
    cases declaration <;> simp [bind, Except.bind, pure, Except.pure, throw, throwThe, MonadExceptOf.throw]

theorem exists_path {e : Entry} (found : index.find? name = some e) (file root ending : String) :
    ∃ path, index.path name file root ending = .ok path := by
  simp only [path, get, found, bind, Except.bind]
  split <;> exact ⟨_, rfl⟩

end Index

end Protogen.Schema
