import Mathlib.Data.List.Induction
import Protogen.Proofs.Schema.Index

set_option autoImplicit false

namespace Protogen.Schema

/-- A declaration, and the names that lead to it from the top level, its own at the end. -/
structure Placed where
  path : List String
  declaration : Declaration

mutual

def Message.preorder (outer : List String) : Message → List Placed
  | ⟨name, fields, choices, messages, enums, isMapEntry⟩ =>
    ⟨outer ++ [name], .message ⟨name, fields, choices, messages, enums, isMapEntry⟩⟩ ::
      enums.map (fun e => ⟨outer ++ [name] ++ [e.name], .enum e⟩) ++
        Message.preorderOf (outer ++ [name]) messages

def Message.preorderOf (outer : List String) : List Message → List Placed
  | [] => []
  | m :: ms => m.preorder outer ++ Message.preorderOf outer ms

end

def File.preorder (f : File) : List Placed :=
  f.enums.map (fun e => ⟨[e.name], .enum e⟩) ++ Message.preorderOf [] f.messages

def File.fullNameAt (f : File) (path : List String) : String :=
  "." ++ Naming.joined "." ((if f.package.isEmpty then [] else [f.package]) ++ path)

def symbolAt (path : List String) : String :=
  Naming.joined "_" path

def Placed.declared (f : File) (p : Placed) : Declared :=
  ⟨f.fullNameAt p.path, symbolAt p.path, p.declaration⟩

-- The scope gives the names of what is declared directly behind the path.
structure Scope.At (f : File) (path : List String) (s : Scope) : Prop where
  fullName : ∀ name, s.fullNameOf name = f.fullNameAt (path ++ [name])
  symbol : ∀ name, s.symbolOf name = symbolAt (path ++ [name])

section Names

variable {f : File} {path : List String} {s : Scope}

theorem joined_concat {separator name : String} {names : List String} (some : names ≠ []) :
    Naming.joined separator (names ++ [name]) = Naming.joined separator names ++ separator ++ name := by
  rw [Naming.joined, String.intercalate_append_of_ne_nil some (List.cons_ne_nil _ _), String.intercalate_singleton]
  rfl

theorem File.at_topLevel (f : File) : f.topLevel.At f [] := by
  refine ⟨fun name => ?_, fun name => ?_⟩
  · rw [Scope.fullNameOf, fullNameAt, topLevel, scope]
    cases f.package.isEmpty with
    | true => simp [Naming.joined]
    | false => simp [Naming.joined, String.append_assoc]
  · simp [Scope.symbolOf, topLevel, symbolAt, Naming.joined]

theorem Scope.At.inside (leads : s.At f path) (name : String) : (s.inside name).At f (path ++ [name]) := by
  have long (front : List String) : front ++ [name] ≠ [] :=
    List.append_ne_nil_of_right_ne_nil _ (List.cons_ne_nil _ _)
  refine ⟨fun inner => ?_, fun inner => ?_⟩
  · change s.fullNameOf name ++ "." ++ inner = _
    rw [leads.fullName, File.fullNameAt, File.fullNameAt, ← List.append_assoc _ _ [inner],
      ← List.append_assoc _ _ [name], joined_concat (long _)]
    simp only [String.append_assoc]
  · change s.symbolOf name ++ "_" ++ inner = _
    rw [leads.symbol, symbolAt, symbolAt, joined_concat (long path)]

theorem Scope.At.declareEnum (leads : s.At f path) (e : Enum) :
    s.declareEnum e = Placed.declared f ⟨path ++ [e.name], .enum e⟩ := by
  rw [Scope.declareEnum, leads.fullName, leads.symbol, Placed.declared]

theorem Scope.At.declareMessage (leads : s.At f path) (m : Message) :
    s.declareMessage m = Placed.declared f ⟨path ++ [m.name], .message m⟩ := by
  rw [Scope.declareMessage, leads.fullName, leads.symbol, Placed.declared]

mutual

theorem Message.declarations_eq_preorder {path : List String} {s : Scope} (leads : s.At f path) (m : Message) :
    m.declarations s = (m.preorder path).map (Placed.declared f) := by
  match m with
  | ⟨name, fields, choices, messages, enums, isMapEntry⟩ =>
    have inside := leads.inside name
    rw [Message.declarations, Message.preorder, leads.declareMessage,
      Message.declarationsOf_eq_preorderOf inside messages]
    simp [inside.declareEnum]

theorem Message.declarationsOf_eq_preorderOf {path : List String} {s : Scope} (leads : s.At f path)
    (ms : List Message) :
    Message.declarationsOf s ms = (Message.preorderOf path ms).map (Placed.declared f) := by
  match ms with
  | [] => rfl
  | m :: ms =>
    rw [Message.declarationsOf, Message.preorderOf, List.map_append, Message.declarations_eq_preorder leads m,
      Message.declarationsOf_eq_preorderOf leads ms]

end

theorem File.declarations_eq_preorder (f : File) : f.declarations = f.preorder.map (Placed.declared f) := by
  rw [File.declarations_eq, File.preorder, List.map_append,
    Message.declarationsOf_eq_preorderOf f.at_topLevel f.messages, List.map_map]
  congr 1
  exact List.map_congr_left fun e _ => f.at_topLevel.declareEnum e

end Names

def Placed.entry (file : File) (p : Placed) : String × Entry :=
  (file.fullNameAt p.path, ⟨Naming.modulePath file.name, file.name, symbolAt p.path, p.declaration⟩)

def walkedEntries (files : List File) : List (String × Entry) :=
  files.flatMap fun f => f.preorder.map (Placed.entry f)

/-- An entry comes whose key an earlier one has, and none before it did. -/
structure FirstRepeat {α : Type} (entries before : List (String × α)) (entry : String × α) : Prop where
  listed : ∃ after, entries = before ++ entry :: after
  distinct : (before.map (·.1)).Nodup
  taken : entry.1 ∈ before.map (·.1)

theorem nodup_concat {α : Type} {entries : List (String × α)} {entry : String × α} :
    ((entries ++ [entry]).map (·.1)).Nodup ↔ (entries.map (·.1)).Nodup ∧ entry.1 ∉ entries.map (·.1) := by
  rw [List.map_append, List.nodup_append_comm]
  simp [and_comm]

theorem exists_firstRepeat {α : Type} {entries : List (String × α)} (repeats : ¬(entries.map (·.1)).Nodup) :
    ∃ before entry, FirstRepeat entries before entry := by
  induction entries using List.reverseRecOn with
  | nil => exact absurd List.nodup_nil repeats
  | append_singleton entries entry ih =>
    by_cases distinct : (entries.map (·.1)).Nodup
    next =>
      refine ⟨entries, entry, ⟨[], rfl⟩, distinct, ?_⟩
      by_cases taken : entry.1 ∈ entries.map (·.1)
      next => exact taken
      next => exact absurd (nodup_concat.2 ⟨distinct, taken⟩) repeats
    next =>
      obtain ⟨before, first, ⟨after, rfl⟩, others, taken⟩ := ih distinct
      exact ⟨before, first, ⟨after ++ [entry], by simp⟩, others, taken⟩

namespace Index

variable {index index' : Index} {entries more : List (String × Entry)} {entry : String × Entry}

def put (index : Index) (entry : String × Entry) : Except CompileError Index :=
  if (index.entries.get? entry.1).isSome then .error (.duplicateType entry.1)
  else .ok ⟨index.entries.insert entry.1 entry.2⟩

theorem ofFiles_eq (files : List File) : ofFiles files = (walkedEntries files).foldlM put empty := by
  have walked : (files.flatMap fun f => f.declarations.map fun d => (f, d)).map
      (fun fd => (fd.2.fullName, fd.2.entry fd.1)) = walkedEntries files := by
    rw [List.map_flatMap, walkedEntries]
    congr 1
    funext f
    rw [f.declarations_eq_preorder, List.map_map, List.map_map]
    rfl
  rw [← walked, List.foldlM_map]
  rfl

/-- The index has these entries, each under a name of its own. -/
structure Holds (index : Index) (entries : List (String × Entry)) : Prop where
  perm : index.entries.entries.Perm entries
  distinct : (entries.map (·.1)).Nodup

theorem holds_empty : empty.Holds [] :=
  ⟨.refl _, List.nodup_nil⟩

namespace Holds

theorem get?_eq_none (holds : index.Holds entries) (name : String) :
    index.entries.get? name = none ↔ name ∉ entries.map (·.1) := by
  rw [Dict.get?_eq_none_iff, (holds.perm.map _).mem_iff]

theorem put (holds : index.Holds entries) (free : entry.1 ∉ entries.map (·.1)) :
    ∃ next, index.put entry = .ok next ∧ next.Holds (entries ++ [entry]) := by
  have missing := (holds.get?_eq_none entry.1).2 free
  have added : (insertKey entry.1 entry.2 index.entries.entries).Perm (entry :: index.entries.entries) :=
    perm_insertKey (Dict.get?_eq_none_iff.1 missing)
  refine ⟨⟨index.entries.insert entry.1 entry.2⟩, by simp [Index.put, missing], ?_, ?_⟩
  · exact added.trans ((holds.perm.cons _).trans (List.perm_append_singleton ..).symm)
  · exact nodup_concat.2 ⟨holds.distinct, free⟩

theorem put_taken (holds : index.Holds entries) (taken : entry.1 ∈ entries.map (·.1)) :
    index.put entry = .error (.duplicateType entry.1) := by
  rw [Index.put, if_pos]
  rw [Option.isSome_iff_ne_none]
  exact fun missing => (holds.get?_eq_none entry.1).1 missing taken

theorem foldlM (holds : index.Holds entries) (distinct : ((entries ++ more).map (·.1)).Nodup) :
    ∃ index', more.foldlM Index.put index = .ok index' ∧ index'.Holds (entries ++ more) := by
  induction more generalizing index entries with
  | nil => exact ⟨index, rfl, by simpa using holds⟩
  | cons entry more ih =>
    rw [List.append_cons] at distinct ⊢
    have first := distinct
    rw [List.map_append] at first
    obtain ⟨next, added, holds⟩ := holds.put (nodup_concat.1 first.of_append_left).2
    rw [List.foldlM_cons, added]
    exact ih holds distinct

end Holds

variable {before : List (String × Entry)}

theorem foldlM_firstRepeat (repeats : FirstRepeat entries before entry) :
    entries.foldlM put empty = .error (.duplicateType entry.1) := by
  obtain ⟨⟨after, rfl⟩, distinct, taken⟩ := repeats
  obtain ⟨index, built, holds⟩ := holds_empty.foldlM distinct
  rw [List.foldlM_append, built]
  change (index.put entry >>= fun next => after.foldlM put next) = _
  rw [holds.put_taken taken]
  rfl

variable {files : List File}

theorem holds_ofFiles (distinct : ((walkedEntries files).map (·.1)).Nodup) :
    ∃ index, ofFiles files = .ok index ∧ index.Holds (walkedEntries files) := by
  rw [ofFiles_eq]
  exact holds_empty.foldlM distinct

theorem ofFiles_firstRepeat (repeats : FirstRepeat (walkedEntries files) before entry) :
    ofFiles files = .error (.duplicateType entry.1) := by
  rw [ofFiles_eq, foldlM_firstRepeat repeats]

theorem holds_of_ok (built : ofFiles files = .ok index) : index.Holds (walkedEntries files) := by
  by_cases distinct : ((walkedEntries files).map (·.1)).Nodup
  next =>
    obtain ⟨index', built', holds⟩ := holds_ofFiles distinct
    rw [built] at built'
    cases built'
    exact holds
  next =>
    obtain ⟨before, entry, repeats⟩ := exists_firstRepeat distinct
    rw [ofFiles_firstRepeat repeats] at built
    cases built

theorem firstRepeat_of_error {e : CompileError} (failed : ofFiles files = .error e) :
    ∃ before entry, FirstRepeat (walkedEntries files) before entry ∧ e = .duplicateType entry.1 := by
  have repeats : ¬((walkedEntries files).map (·.1)).Nodup := by
    intro distinct
    obtain ⟨index, built, -⟩ := holds_ofFiles distinct
    rw [failed] at built
    cases built
  obtain ⟨before, entry, first⟩ := exists_firstRepeat repeats
  rw [ofFiles_firstRepeat first] at failed
  exact ⟨before, entry, first, (Except.error.inj failed).symm⟩

theorem find?_eq_some (built : ofFiles files = .ok index) {name : String} {e : Entry} :
    index.find? name = some e ↔ (name, e) ∈ walkedEntries files := by
  rw [find?, Dict.get?_eq_some_iff, (holds_of_ok built).perm.mem_iff]

theorem get_eq_ok {name context : String} {e : Entry} :
    index.get name context = .ok e ↔ index.find? name = some e := by
  rw [get]
  cases index.find? name <;> simp

/-- The walk over the stack of open levels is the recursive one. The index has the entries of all walks and no others,
and there is one unless a name comes again; the first name that does is the fault. -/
theorem ofFiles_faithful (files : List File) :
    (∀ f : File, f.declarations = f.preorder.map (Placed.declared f)) ∧
      ((∃ index, ofFiles files = .ok index) ↔ ((walkedEntries files).map (·.1)).Nodup) ∧
      (∀ index, ofFiles files = .ok index →
        index.entries.entries.Perm (walkedEntries files) ∧
          ∀ name context e, index.get name context = .ok e ↔ (name, e) ∈ walkedEntries files) ∧
      ∀ e, ofFiles files = .error e ↔
        ∃ before entry, FirstRepeat (walkedEntries files) before entry ∧ e = .duplicateType entry.1 := by
  refine ⟨File.declarations_eq_preorder, ?_, ?_, ?_⟩
  · constructor
    · intro ⟨_, built⟩
      exact (holds_of_ok built).distinct
    · intro distinct
      obtain ⟨index, built, -⟩ := holds_ofFiles distinct
      exact ⟨index, built⟩
  · intro index built
    refine ⟨(holds_of_ok built).perm, fun name context e => ?_⟩
    rw [get_eq_ok, find?_eq_some built]
  · intro e
    constructor
    · exact firstRepeat_of_error
    · intro ⟨_, _, repeats, same⟩
      rw [same, ofFiles_firstRepeat repeats]

end Index

def stockEntry : Message :=
  ⟨"StockEntry", [
    ⟨"key", "key", 1, .string, .optional, none, none, false⟩,
    ⟨"value", "value", 2, .enum, .optional, some ".shop.Item.Size", none, false⟩], [], [], [], true⟩

def itemFile : File where
  name := "shop/item.proto"
  package := "shop"
  grammar := .proto3
  enums := [⟨"Color", [⟨"RED", 0⟩]⟩]
  messages := [
    ⟨"Item", [
      ⟨"color", "color", 1, .enum, .optional, some ".shop.Color", none, false⟩,
      ⟨"stock", "stock", 2, .message, .repeated, some ".shop.Item.StockEntry", none, false⟩],
      [], [stockEntry], [⟨"Size", [⟨"SMALL", 0⟩]⟩], false⟩]
  services := [⟨"Shop", [⟨"Swap", ".shop.Item", ".shop.Item", false, false⟩]⟩]

theorem Index.ofFiles_faithful_itemFile : ∃ index, Index.ofFiles [itemFile] = .ok index ∧
    index.names.Perm [".shop.Color", ".shop.Item", ".shop.Item.Size", ".shop.Item.StockEntry"] ∧
      index.get ".shop.Item.StockEntry" "" =
        .ok ⟨"shop::item", "shop/item.proto", "Item_StockEntry", .message stockEntry⟩ := by
  obtain ⟨-, exists_iff, found, -⟩ := Index.ofFiles_faithful [itemFile]
  obtain ⟨index, built⟩ := exists_iff.2 (by decide)
  obtain ⟨perm, get_iff⟩ := found index built
  exact ⟨index, built, perm.map _, (get_iff _ _ _).2 (List.mem_of_getElem? (i := 3) rfl)⟩

end Protogen.Schema
