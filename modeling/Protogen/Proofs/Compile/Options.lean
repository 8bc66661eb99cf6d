import Mathlib.Data.List.Forall2
import Protogen.Proofs.Compile.OptionTexts
import Protogen.Proofs.Except

set_option autoImplicit false

namespace Protogen.Options

open Text (isBlank trim)

inductive Key where
  | forceLong
  | useDate
  | stringEnums
  | jsonEnums
  | oneof
  | snakeToCamel
  | outputEncodeMethods
  | outputJsonMethods
  | outputPartialMethods
  | outputClientImpl
  | moduleRoot
  deriving DecidableEq

namespace Key

def name : Key → String
  | forceLong => "forceLong"
  | useDate => "useDate"
  | stringEnums => "stringEnums"
  | jsonEnums => "jsonEnums"
  | oneof => "oneof"
  | snakeToCamel => "snakeToCamel"
  | outputEncodeMethods => "outputEncodeMethods"
  | outputJsonMethods => "outputJsonMethods"
  | outputPartialMethods => "outputPartialMethods"
  | outputClientImpl => "outputClientImpl"
  | moduleRoot => "moduleRoot"

def Value : Key → Type
  | forceLong => LongOption
  | useDate => DateOption
  | jsonEnums => EnumJson
  | oneof => ChoiceOption
  | outputClientImpl => ClientOption
  | moduleRoot => String
  | stringEnums | snakeToCamel | outputEncodeMethods | outputJsonMethods | outputPartialMethods => Bool

def get : (key : Key) → Options → key.Value
  | forceLong, o => o.long
  | useDate, o => o.date
  | stringEnums, o => o.stringEnums
  | jsonEnums, o => o.jsonEnums
  | oneof, o => o.choice
  | snakeToCamel, o => o.snakeToCamel
  | outputEncodeMethods, o => o.outputEncode
  | outputJsonMethods, o => o.outputJson
  | outputPartialMethods, o => o.outputPartial
  | outputClientImpl, o => o.client
  | moduleRoot, o => o.moduleRoot

def put : (key : Key) → Options → key.Value → Options
  | forceLong, o, v => { o with long := v }
  | useDate, o, v => { o with date := v }
  | stringEnums, o, v => { o with stringEnums := v }
  | jsonEnums, o, v => { o with jsonEnums := v }
  | oneof, o, v => { o with choice := v }
  | snakeToCamel, o, v => { o with snakeToCamel := v }
  | outputEncodeMethods, o, v => { o with outputEncode := v }
  | outputJsonMethods, o, v => { o with outputJson := v }
  | outputPartialMethods, o, v => { o with outputPartial := v }
  | outputClientImpl, o, v => { o with client := v }
  | moduleRoot, o, v => { o with moduleRoot := v }

-- The texts that are permitted, with what they stand for

def longs : List (String × LongOption) :=
  [("number", .number), ("long", .number), ("string", .string), ("bigint", .bigInt)]

def dates : List (String × DateOption) :=
  [("timestamp", .timestamp), ("false", .timestamp), ("date", .date), ("true", .date), ("string", .string)]

def enumForms : List (String × EnumJson) :=
  [("name", .name), ("number", .number)]

def choices : List (String × ChoiceOption) :=
  [("properties", .properties), ("unions", .unions)]

def clients : List (String × ClientOption) :=
  [("true", .rpc), ("false", .none), ("grpc", .grpc)]

def switches : List (String × Bool) :=
  [("true", true), ("false", false)]

/-- The text is permitted for the key, and stands for the value. -/
def Denotes : (key : Key) → String → key.Value → Prop
  | forceLong, text, v => (text, v) ∈ longs
  | useDate, text, v => (text, v) ∈ dates
  | jsonEnums, text, v => (text, v) ∈ enumForms
  | oneof, text, v => (text, v) ∈ choices
  | outputClientImpl, text, v => (text, v) ∈ clients
  | moduleRoot, text, v => IsPath text.toList ∧ v = text
  | stringEnums, text, v => (text, v) ∈ switches
  | snakeToCamel, text, v => (text, v) ∈ switches
  | outputEncodeMethods, text, v => (text, v) ∈ switches
  | outputJsonMethods, text, v => (text, v) ∈ switches
  | outputPartialMethods, text, v => (text, v) ∈ switches

theorem name_injective : Function.Injective name := by
  intro key key' same
  cases key <;> cases key' <;> first | rfl | exact absurd same (by decide)

theorem get_put (key : Key) (o : Options) (v : key.Value) : key.get (key.put o v) = v := by
  cases key <;> rfl

theorem get_put_of_ne {key key' : Key} (other : key' ≠ key) (o : Options) (v : key.Value) :
    key'.get (key.put o v) = key'.get o := by
  cases key <;> cases key' <;> first | rfl | exact absurd rfl other

theorem options_ext {o o' : Options} (same : ∀ key : Key, key.get o = key.get o') : o = o' := by
  have long := same forceLong
  have date := same useDate
  have strings := same stringEnums
  have json := same jsonEnums
  have choice := same oneof
  have camel := same snakeToCamel
  have encode := same outputEncodeMethods
  have toJson := same outputJsonMethods
  have partials := same outputPartialMethods
  have client := same outputClientImpl
  have root := same moduleRoot
  cases o
  cases o'
  simp only [get] at long date strings json choice camel encode toJson partials client root
  simp only [long, date, strings, json, choice, camel, encode, toJson, partials, client, root]

theorem word_name (key : Key) : Word Char.isAlpha key.name.toList := by
  cases key <;> exact ⟨⟨_, rfl, by decide⟩, List.all_eq_true.1 (by decide)⟩

-- What is read of each text

theorem readLong?_eq_some_iff {text : String} {v : LongOption} : readLong? text = some v ↔ (text, v) ∈ longs := by
  unfold readLong? longs
  split <;> simp_all [eq_comm]

theorem readDate?_eq_some_iff {text : String} {v : DateOption} : readDate? text = some v ↔ (text, v) ∈ dates := by
  unfold readDate? dates
  split <;> simp_all [eq_comm]

theorem readEnumJson?_eq_some_iff {text : String} {v : EnumJson} :
    readEnumJson? text = some v ↔ (text, v) ∈ enumForms := by
  unfold readEnumJson? enumForms
  split <;> simp_all [eq_comm]

theorem readChoice?_eq_some_iff {text : String} {v : ChoiceOption} :
    readChoice? text = some v ↔ (text, v) ∈ choices := by
  unfold readChoice? choices
  split <;> simp_all [eq_comm]

theorem readClient?_eq_some_iff {text : String} {v : ClientOption} :
    readClient? text = some v ↔ (text, v) ∈ clients := by
  unfold readClient? clients
  split <;> simp_all [eq_comm]

theorem readBool_eq_ok_iff {key text : String} {b : Bool} : readBool key text = .ok b ↔ (text, b) ∈ switches := by
  unfold readBool switches
  split <;> simp_all [eq_comm]

theorem supported_eq_ok_iff {α : Type} {key text : String} {x : Option α} {a : α} :
    supported key text x = .ok a ↔ x = some a := by
  cases x <;> simp [supported]

theorem read_then_put {α : Type} {read : Except CompileError α} {denotes : α → Prop}
    (exact : ∀ a, read = .ok a ↔ denotes a) {f : α → Options} {o : Options} :
    (do return f (← read)) = Except.ok (ε := CompileError) o ↔ ∃ a, denotes a ∧ o = f a := by
  rw [bind_eq_ok]
  refine exists_congr fun a => and_congr (exact a) ?_
  exact ⟨fun same => (Except.ok.inj same).symm, fun same => congrArg Except.ok same.symm⟩

theorem set_name (key : Key) (o o' : Options) (text : String) :
    o.set key.name text = .ok o' ↔ ∃ v, key.Denotes text v ∧ o' = key.put o v := by
  cases key with
  | forceLong => exact read_then_put fun v => supported_eq_ok_iff.trans readLong?_eq_some_iff
  | useDate => exact read_then_put fun v => supported_eq_ok_iff.trans readDate?_eq_some_iff
  | jsonEnums => exact read_then_put fun v => supported_eq_ok_iff.trans readEnumJson?_eq_some_iff
  | oneof => exact read_then_put fun v => supported_eq_ok_iff.trans readChoice?_eq_some_iff
  | outputClientImpl => exact read_then_put fun v => supported_eq_ok_iff.trans readClient?_eq_some_iff
  | moduleRoot =>
    change (if isModulePath text then _ else _) = _ ↔ _
    by_cases path : isModulePath text = true
    next =>
      rw [if_pos path]
      constructor
      next =>
        intro same
        exact ⟨text, ⟨isModulePath_iff.1 path, rfl⟩, (Except.ok.inj same).symm⟩
      next =>
        rintro ⟨v, ⟨-, rfl⟩, rfl⟩
        rfl
    next =>
      rw [if_neg path]
      refine ⟨nofun, ?_⟩
      rintro ⟨v, ⟨permitted, -⟩, -⟩
      exact absurd (isModulePath_iff.2 permitted) path
  | stringEnums => exact read_then_put fun v => readBool_eq_ok_iff
  | snakeToCamel => exact read_then_put fun v => readBool_eq_ok_iff
  | outputEncodeMethods => exact read_then_put fun v => readBool_eq_ok_iff
  | outputJsonMethods => exact read_then_put fun v => readBool_eq_ok_iff
  | outputPartialMethods => exact read_then_put fun v => readBool_eq_ok_iff

theorem exists_name_of_set {key text : String} {o o' : Options} (success : o.set key text = .ok o') :
    ∃ k : Key, k.name = key := by
  unfold set at success
  split at success
  next => exact ⟨forceLong, rfl⟩
  next => exact ⟨useDate, rfl⟩
  next => exact ⟨jsonEnums, rfl⟩
  next => exact ⟨oneof, rfl⟩
  next => exact ⟨outputClientImpl, rfl⟩
  next => exact ⟨moduleRoot, rfl⟩
  next => exact ⟨stringEnums, rfl⟩
  next => exact ⟨snakeToCamel, rfl⟩
  next => exact ⟨outputEncodeMethods, rfl⟩
  next => exact ⟨outputJsonMethods, rfl⟩
  next => exact ⟨outputPartialMethods, rfl⟩
  next => cases success

theorem Denotes.solid {key : Key} {text : String} {v : key.Value} (denotes : key.Denotes text v) :
    Solid text.toList := by
  have longs : ∀ pair ∈ longs, Solid pair.1.toList := by decide
  have dates : ∀ pair ∈ dates, Solid pair.1.toList := by decide
  have enumForms : ∀ pair ∈ enumForms, Solid pair.1.toList := by decide
  have choices : ∀ pair ∈ choices, Solid pair.1.toList := by decide
  have clients : ∀ pair ∈ clients, Solid pair.1.toList := by decide
  have switches : ∀ pair ∈ switches, Solid pair.1.toList := by decide
  cases key with
  | forceLong => exact longs _ denotes
  | useDate => exact dates _ denotes
  | jsonEnums => exact enumForms _ denotes
  | oneof => exact choices _ denotes
  | outputClientImpl => exact clients _ denotes
  | moduleRoot => exact denotes.1.solid
  | stringEnums => exact switches _ denotes
  | snakeToCamel => exact switches _ denotes
  | outputEncodeMethods => exact switches _ denotes
  | outputJsonMethods => exact switches _ denotes
  | outputPartialMethods => exact switches _ denotes

end Key

/-- A key, and a text that it permits. -/
structure Setting where
  key : Key
  text : String
  value : key.Value
  denotes : key.Denotes text value

namespace Setting

def chars (s : Setting) : List Char :=
  s.key.name.toList ++ '=' :: s.text.toList

def put (s : Setting) (o : Options) : Options :=
  s.key.put o s.value

end Setting

theorem readPiece_eq_ok_iff {seen : List String} {o : Options} {piece : List Char} {state : List String × Options} :
    readPiece (seen, o) piece = .ok state ↔ ∃ s : Setting,
      tidy piece = s.chars ∧ s.key.name ∉ seen ∧ state = (s.key.name :: seen, s.put o) := by
  constructor
  next =>
    intro success
    unfold readPiece at success
    split at success
    next => cases success
    next key text read =>
      obtain ⟨tidied, -, -⟩ := readPair?_eq_some_iff.1 read
      split at success
      next => cases success
      next new =>
        obtain ⟨o', set, same⟩ := ok_of_bind success
        obtain ⟨k, rfl⟩ := Key.exists_name_of_set set
        obtain ⟨v, denotes, rfl⟩ := (k.set_name o o' text).1 set
        exact ⟨⟨k, text, v, denotes⟩, tidied, by simpa using new, (Except.ok.inj same).symm⟩
  next =>
    rintro ⟨⟨k, text, v, denotes⟩, tidied, new, rfl⟩
    have read : readPair? piece = some (k.name, text) :=
      readPair?_eq_some_iff.2 ⟨tidied, k.word_name, denotes.solid⟩
    have set : o.set k.name text = .ok (k.put o v) := (k.set_name o _ text).2 ⟨v, denotes, rfl⟩
    have unseen : seen.contains k.name = false := by simpa using new
    simp only [readPiece, read, unseen, set]
    rfl

theorem foldlM_readPiece_eq_ok_iff {seen : List String} {o : Options} {pieces : List (List Char)}
    {state : List String × Options} :
    pieces.foldlM readPiece (seen, o) = .ok state ↔ ∃ settings : List Setting,
      List.Forall₂ (fun piece s => tidy piece = s.chars) pieces settings ∧
      (settings.map Setting.key).Nodup ∧ (∀ s ∈ settings, s.key.name ∉ seen) ∧
      state = ((settings.map (·.key.name)).reverse ++ seen, settings.foldl (fun o s => s.put o) o) := by
  induction pieces generalizing seen o with
  | nil =>
    constructor
    next =>
      intro success
      cases success
      exact ⟨[], .nil, .nil, nofun, rfl⟩
    next =>
      rintro ⟨settings, each, -, -, rfl⟩
      cases each
      rfl
  | cons piece pieces ih =>
    rw [List.foldlM_cons, bind_eq_ok]
    constructor
    next =>
      rintro ⟨state', first, rest⟩
      obtain ⟨s, tidied, new, rfl⟩ := readPiece_eq_ok_iff.1 first
      obtain ⟨settings, each, distinct, others, rfl⟩ := ih.1 rest
      refine ⟨s :: settings, .cons tidied each, List.nodup_cons.2 ⟨?_, distinct⟩,
        List.forall_mem_cons.2 ⟨new, fun t member seen => others t member (List.mem_cons_of_mem _ seen)⟩, by simp⟩
      intro again
      obtain ⟨t, member, same⟩ := List.mem_map.1 again
      exact others t member (same ▸ List.mem_cons_self ..)
    next =>
      rintro ⟨settings, each, distinct, others, rfl⟩
      cases each with
      | cons tidied each =>
        rename_i s settings
        obtain ⟨new, others⟩ := List.forall_mem_cons.1 others
        obtain ⟨fresh, distinct⟩ := List.nodup_cons.1 distinct
        refine ⟨_, readPiece_eq_ok_iff.2 ⟨s, tidied, new, rfl⟩, ih.2 ⟨settings, each, distinct, ?_, by simp⟩⟩
        intro t member seen
        obtain same | seen := List.mem_cons.1 seen
        next => exact fresh (Key.name_injective same ▸ List.mem_map_of_mem member)
        next => exact others t member seen

-- What the settings make of the options

theorem get_foldl_of_not_mem {settings : List Setting} {key : Key} (other : key ∉ settings.map Setting.key)
    (o : Options) : key.get (settings.foldl (fun o s => s.put o) o) = key.get o := by
  induction settings generalizing o with
  | nil => rfl
  | cons s settings ih =>
    rw [List.map_cons, List.mem_cons, not_or] at other
    rw [List.foldl_cons, ih other.2]
    exact Key.get_put_of_ne other.1 o s.value

theorem get_foldl_of_mem {settings : List Setting} (distinct : (settings.map Setting.key).Nodup) {s : Setting}
    (given : s ∈ settings) (o : Options) : s.key.get (settings.foldl (fun o s => s.put o) o) = s.value := by
  induction settings generalizing o with
  | nil => cases given
  | cons first settings ih =>
    obtain ⟨fresh, distinct⟩ := List.nodup_cons.1 distinct
    obtain rfl | given := List.mem_cons.1 given
    next =>
      rw [List.foldl_cons, get_foldl_of_not_mem fresh]
      exact Key.get_put s.key o s.value
    next => exact ih distinct given (first.put o)

/-- The options are those that the settings give, and the default where they give none. -/
structure Describes (settings : List Setting) (o : Options) : Prop where
  distinct : (settings.map Setting.key).Nodup
  given : ∀ s ∈ settings, s.key.get o = s.value
  default : ∀ key ∉ settings.map Setting.key, key.get o = key.get {}
  encoded : o.client = .none ∨ o.outputEncode = true

theorem Describes.eq_foldl {settings : List Setting} {o : Options} (describes : Describes settings o) :
    o = settings.foldl (fun o s => s.put o) {} := by
  apply Key.options_ext
  intro key
  by_cases given : key ∈ settings.map Setting.key
  next =>
    obtain ⟨s, member, rfl⟩ := List.mem_map.1 given
    rw [describes.given s member, get_foldl_of_mem describes.distinct member]
  next => rw [describes.default key given, get_foldl_of_not_mem given]

theorem Describes.of_perm {settings settings' : List Setting} {o : Options} (describes : Describes settings o)
    (perm : settings'.Perm settings) : Describes settings' o where
  distinct := (perm.map Setting.key).nodup_iff.2 describes.distinct
  given s member := describes.given s (perm.mem_iff.1 member)
  default key absent := describes.default key fun given => absent ((perm.map Setting.key).mem_iff.2 given)
  encoded := describes.encoded

def Setting.Spells (s : Setting) (piece : List Char) : Prop :=
  Spaced piece s.key.name.toList s.text.toList

theorem Setting.spells_iff {s : Setting} {piece : List Char} : s.Spells piece ↔ tidy piece = s.chars :=
  ⟨fun spaced => spaced.tidy s.key.word_name s.denotes.solid, spaced_of_tidy s.key.word_name.plain⟩

theorem check_client_eq_ok_iff {o o' : Options} :
    (do
      if o.client ≠ .none ∧ !o.outputEncode then throw .clientWithoutEncoding
      return o : Except CompileError Options) = .ok o' ↔ o' = o ∧ (o.client = .none ∨ o.outputEncode = true) := by
  by_cases refused : o.client ≠ .none ∧ (!o.outputEncode) = true
  next =>
    rw [if_pos refused]
    refine ⟨nofun, ?_⟩
    rintro ⟨-, none | encode⟩
    next => exact absurd none refused.1
    next => exact absurd refused.2 (by simp [encode])
  next =>
    rw [if_neg refused]
    have encoded : o.client = .none ∨ o.outputEncode = true := by
      rw [not_and_or, not_not] at refused
      simpa using refused
    exact ⟨fun same => ⟨(Except.ok.inj same).symm, encoded⟩, fun both => congrArg Except.ok both.1.symm⟩

theorem parse_eq_ok_iff {text : String} {o : Options} :
    parse text = .ok o ↔ ∃ settings : List Setting,
      List.Forall₂ (fun piece s => tidy piece = s.chars) (pieces text) settings ∧ Describes settings o := by
  have notBlank : (fun piece : List Char => !(trim piece).isEmpty) = fun piece => !piece.all isBlank := by
    funext piece
    rw [Bool.not_inj_iff, Bool.eq_iff_iff, List.isEmpty_iff, Text.trim_eq_nil_iff, List.all_eq_true]
    rfl
  rw [parse, Text.splitAt_eq_splitOn, notBlank, ← pieces, bind_eq_ok]
  constructor
  next =>
    rintro ⟨⟨seen, o'⟩, read, checked⟩
    obtain ⟨settings, each, distinct, -, same⟩ := foldlM_readPiece_eq_ok_iff.1 read
    obtain ⟨-, rfl⟩ := Prod.mk.inj same
    obtain ⟨rfl, encoded⟩ := check_client_eq_ok_iff.1 checked
    exact ⟨settings, each, distinct, fun s member => get_foldl_of_mem distinct member {},
      fun key absent => get_foldl_of_not_mem absent {}, encoded⟩
  next =>
    rintro ⟨settings, each, describes⟩
    refine ⟨_, foldlM_readPiece_eq_ok_iff.2 ⟨settings, each, describes.distinct, fun _ _ => nofun, rfl⟩, ?_⟩
    rw [← describes.eq_foldl]
    exact check_client_eq_ok_iff.2 ⟨rfl, describes.encoded⟩

theorem parse_of_perm {text text' : String} (perm : ((pieces text').map tidy).Perm ((pieces text).map tidy))
    {o : Options} (success : parse text = .ok o) : parse text' = .ok o := by
  obtain ⟨settings, each, describes⟩ := parse_eq_ok_iff.1 success
  have tidied : List.Forall₂ (fun chars s => chars = Setting.chars s) ((pieces text).map tidy) settings :=
    List.forall₂_map_left_iff.2 each
  obtain ⟨settings', each', perm'⟩ := List.perm_comp_forall₂ perm tidied
  exact parse_eq_ok_iff.2 ⟨settings', List.forall₂_map_left_iff.1 each', describes.of_perm perm'⟩

/-- A text is read if each of its pieces is a setting, no key comes twice, and no client is left without the encoding
that it needs. Neither the order of the pieces nor the white space around their parts matters, nor do blank pieces. -/
theorem parse_exact (text : String) :
    (∀ o, parse text = .ok o ↔ ∃ settings : List Setting,
      List.Forall₂ (fun piece s => s.Spells piece) (pieces text) settings ∧ Describes settings o) ∧
    ∀ text' : String, ((pieces text').map tidy).Perm ((pieces text).map tidy) →
      ∀ o, parse text' = .ok o ↔ parse text = .ok o := by
  constructor
  next =>
    intro o
    simp only [Setting.spells_iff, parse_eq_ok_iff]
  next =>
    intro text' perm o
    exact ⟨parse_of_perm perm.symm, parse_of_perm perm⟩

theorem parse_exact_reordered :
    ((pieces " oneof =\tunions,,useDate=true ").map tidy).Perm ((pieces "useDate=true,oneof=unions").map tidy) ∧
      parse " oneof =\tunions,,useDate=true " = .ok { date := .date, choice := .unions } := by
  have perm : ((pieces " oneof =\tunions,,useDate=true ").map tidy).Perm
      ((pieces "useDate=true,oneof=unions").map tidy) := by decide
  refine ⟨perm, ((parse_exact "useDate=true,oneof=unions").2 _ perm _).2 ?_⟩
  decide

end Protogen.Options
