import Protogen.Codec.JsonMessage
import Protogen.Proofs.Codec.Base64
import Protogen.Proofs.Dict
import Protogen.Proofs.Json.Member

set_option autoImplicit false

namespace Protogen

open Number (Double Range)

theorem Number.Double.infinity_isNegative {x : Double} (infinite : x.isInfinite = true) :
    infinity x.isNegative = x := by
  obtain ⟨bits⟩ := x
  have word : bits.toNat < 18446744073709551616 := bits.toNat_lt
  have value : bits.toNat % 9223372036854775808 = FloatFormat.double.infinity := eq_of_beq infinite
  have size : FloatFormat.double.infinity < 9223372036854775808 := by decide
  refine congrArg Double.mk (UInt64.toNat_inj.1 ?_)
  rw [UInt64.toNat_ofNat']
  by_cases negative : 9223372036854775808 ≤ bits.toNat
  · have sign : isNegative ⟨bits⟩ = true := decide_eq_true negative
    rw [sign, if_pos rfl, signBit]
    omega
  · have sign : isNegative ⟨bits⟩ = false := decide_eq_false negative
    rw [sign, if_neg Bool.false_ne_true]
    omega

namespace JsonCodec

variable {α : Type} {c : JsonCodec α}

def Returns (c : JsonCodec α) (a b : α) : Prop :=
  (c.write a).isNull = false ∧ c.read (c.write a) = .ok b

theorem returns_string (s : String) : string.Returns s s :=
  ⟨rfl, rfl⟩

theorem returns_bool (b : Bool) : bool.Returns b b :=
  ⟨rfl, rfl⟩

theorem toIntegerIn_int {r : Range} {i : Int} (inside : r.contains i = true) :
    (Json.int i).toIntegerIn r = .ok i :=
  if_pos inside

theorem returns_int32 (n : Int32) : int32.Returns n n := by
  have inside : Range.int32.contains n.toInt = true := Range.contains_iff.2 ⟨n.le_toInt, n.toInt_lt⟩
  refine ⟨rfl, ?_⟩
  simp only [int32, toIntegerIn_int inside, Except.map, Int32.ofInt_toInt]

theorem returns_bytes (b : ByteArray) : bytes.Returns b b := by
  refine ⟨rfl, ?_⟩
  simp only [bytes, Json.toText, Base64.decode?_encode, bind, Except.bind]
  rfl

-- A number comes back bit for bit; what is not a number comes back as some value that is none either.
theorem returns_double (x : Double) :
    ∃ y, double.Returns x y ∧ (x.isNaN = false → y = x) ∧ (x.isNaN = true → y.isNaN = true) := by
  by_cases nan : x.isNaN = true
  · refine ⟨Double.nan false, ⟨?_, ?_⟩, ?_, fun _ => by decide⟩
    · simp only [double, Json.ofDouble, nan, if_true]
      rfl
    · simp only [double, Json.ofDouble, nan, if_true]
      rfl
    · rw [nan]
      nofun
  · by_cases infinite : x.isInfinite = true
    · refine ⟨x, ?_, fun _ => rfl, fun no => absurd no nan⟩
      rw [← Double.infinity_isNegative infinite]
      cases x.isNegative <;> exact ⟨rfl, rfl⟩
    · refine ⟨x, ?_, fun _ => rfl, fun no => absurd no nan⟩
      simp only [Returns, double, Json.ofDouble, nan, infinite]
      exact ⟨rfl, rfl⟩

theorem returns_list {as : List α} (each : ∀ a ∈ as, c.Returns a a) : (list c).Returns as as := by
  refine ⟨rfl, ?_⟩
  change (as.map c.write).mapM c.read = .ok as
  induction as with
  | nil => rfl
  | cons a as ih =>
    obtain ⟨first, rest⟩ := List.forall_mem_cons.1 each
    rw [List.map_cons, List.mapM_cons, first.2, ih rest]
    rfl

theorem returns_dict {d : Dict α} (each : ∀ e ∈ d.entries, c.Returns e.2 e.2) : (dict c).Returns d d := by
  refine ⟨rfl, ?_⟩
  change (d.entries.map fun e => (e.1, c.write e.2)).foldlM
    (fun d m => do return d.insert m.1 (← c.read m.2)) Dict.empty = .ok d
  have fold (entries : List (String × α)) (acc : Dict α) (each : ∀ e ∈ entries, c.Returns e.2 e.2) :
      (entries.map fun e => (e.1, c.write e.2)).foldlM
        (fun d m => do return d.insert m.1 (← c.read m.2)) acc =
          .ok (entries.foldl (fun d e => d.insert e.1 e.2) acc) := by
    induction entries generalizing acc with
    | nil => rfl
    | cons e entries ih =>
      obtain ⟨first, rest⟩ := List.forall_mem_cons.1 each
      rw [List.map_cons, List.foldlM_cons, first.2]
      exact ih _ rest
  rw [fold d.entries Dict.empty each]
  exact congrArg Except.ok (Dict.ofList_entries d)

end JsonCodec

namespace JsonField

variable {μ α : Type} {f : JsonField μ} {w m m' : μ}

def Delivers (f : JsonField μ) (w m m' : μ) : Prop :=
  match f.write w with
  | none => m' = m
  | some v => v.isNull = false ∧ f.read v m = .ok m'

variable {key : String} {c : JsonCodec α}

theorem delivers_required {get : μ → α} {set : α → μ → μ} {b : α} (returns : c.Returns (get w) b) :
    (required key c get set).Delivers w m (set b m) := by
  refine ⟨returns.1, ?_⟩
  simp only [required, returns.2]
  rfl

theorem delivers_optional {get : μ → Option α} {set : α → μ → μ} (absent : get w = none → m' = m)
    (present : ∀ a, get w = some a → ∃ b, c.Returns a b ∧ m' = set b m) :
    (optional key c get set).Delivers w m m' := by
  simp only [Delivers, optional]
  cases held : get w with
  | none => exact absent held
  | some a =>
    obtain ⟨b, returns, rfl⟩ := present a held
    refine ⟨returns.1, ?_⟩
    simp only [returns.2]
    rfl

theorem delivers_member {get : μ → Option α} (set : Option α → μ → μ) (unset : set none m = m)
    (returns : ∀ a, get w = some a → c.Returns a a) :
    (optional key c get fun a => set (some a)).Delivers w m (set (get w) m) := by
  refine delivers_optional (fun absent => ?_) fun a present => ⟨a, returns a present, by rw [present]⟩
  rw [absent, unset]

end JsonField

namespace JsonMessage

variable {μ : Type} {c : JsonMessage μ} {f : JsonField μ} {fields : List (JsonField μ)} {w m m' : μ}

def Keyed (c : JsonMessage μ) : Prop :=
  (c.fields.map (·.key)).Nodup

theorem Keyed.of_keys (keys : List String) (same : c.fields.map (·.key) = keys) (distinct : keys.Nodup) :
    c.Keyed := by
  rwa [Keyed, same]

inductive Delivers (w : μ) : List (JsonField μ) → μ → μ → Prop
  | nil (m : μ) : Delivers w [] m m
  | cons {fields : List (JsonField μ)} {f : JsonField μ} {m m₁ m₂ : μ}
      (first : f.Delivers w m m₁) (rest : Delivers w fields m₁ m₂) : Delivers w (f :: fields) m m₂

theorem Delivers.through {m₂ : μ} (m₁ : μ) (first : f.Delivers w m m₁) (rest : Delivers w fields m₁ m₂) :
    Delivers w (f :: fields) m m₂ :=
  .cons first rest

def members (fields : List (JsonField μ)) (w : μ) : List (String × Json) :=
  fields.filterMap fun f => (f.write w).map fun v => (f.key, v)

theorem mem_members {e : String × Json} :
    e ∈ members fields w ↔ ∃ f ∈ fields, ∃ v, f.write w = some v ∧ (f.key, v) = e := by
  simp [members]

theorem distinct_members (keyed : (fields.map (·.key)).Nodup) :
    (members fields w).Pairwise fun a b => a.1 ≠ b.1 := by
  induction fields with
  | nil => exact .nil
  | cons f fields ih =>
    obtain ⟨apart, keyed⟩ := List.nodup_cons.1 keyed
    cases written : f.write w with
    | none => simpa [members, written] using ih keyed
    | some v =>
      have first : members (f :: fields) w = (f.key, v) :: members fields w := by simp [members, written]
      rw [first]
      refine List.pairwise_cons.2 ⟨?_, ih keyed⟩
      intro e member same
      obtain ⟨g, other, v', -, rfl⟩ := mem_members.1 member
      exact apart (List.mem_map.2 ⟨g, other, same.symm⟩)

theorem member?_write (keyed : c.Keyed) (member : f ∈ c.fields)
    (present : ∀ v, f.write w = some v → v.isNull = false) :
    Json.member? ((members c.fields w).foldl (fun acc m => insertKey m.1 m.2 acc) []) f.key = f.write w := by
  cases written : f.write w with
  | some v =>
    exact Json.member?_foldl_of_mem (distinct_members keyed) (mem_members.2 ⟨f, member, v, written, rfl⟩)
      (present v written)
  | none =>
    have absent : ∀ e ∈ members c.fields w, e.1 ≠ f.key := by
      intro e other same
      obtain ⟨g, member', v, written', rfl⟩ := mem_members.1 other
      cases List.inj_on_of_nodup_map keyed member' member same
      rw [written] at written'
      cases written'
    rw [Json.member?_foldl_of_ne absent]
    rfl

def readField (members : List (String × Json)) (m : μ) (f : JsonField μ) : Except CodecError μ :=
  match Json.member? members f.key with
  | some v => f.read v m
  | none => .ok m

theorem foldlM_readField {members : List (String × Json)} {start : μ} (delivers : Delivers w fields start m)
    (found : ∀ f ∈ fields, (∀ v, f.write w = some v → v.isNull = false) →
      Json.member? members f.key = f.write w) : fields.foldlM (readField members) start = .ok m := by
  induction delivers with
  | nil m => rfl
  | @cons fields f m m₁ m₂ first rest ih =>
    obtain ⟨here, found⟩ := List.forall_mem_cons.1 found
    have step : readField members m f = .ok m₁ := by
      rw [readField]
      rw [JsonField.Delivers] at first
      cases written : f.write w with
      | none =>
        rw [here (by simp [written]), written]
        rw [written] at first
        exact congrArg Except.ok first.symm
      | some v =>
        rw [written] at first
        rw [here (by simp [written, first.1]), written]
        exact first.2
    rw [List.foldlM_cons, step]
    exact ih found

-- The fields are read in their own order, wherever their members stand.
theorem read_write (keyed : c.Keyed) (delivers : Delivers w c.fields c.base m) : c.read (c.write w) = .ok m :=
  foldlM_readField delivers fun _ member present => member?_write keyed member present

end JsonMessage

end Protogen
