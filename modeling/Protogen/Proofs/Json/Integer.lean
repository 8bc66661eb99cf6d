import Protogen.Codec.JsonMessage
import Protogen.Proofs.Number.DoubleValue
import Protogen.Proofs.Number.Numeral

set_option autoImplicit false

namespace Protogen.Number.Range

-- A range with no more than 64 bits lies inside 128 bits.
def Narrow (r : Range) : Prop :=
  int128.lo < r.lo ∧ r.hi < int128.hi

theorem Narrow.wide {r : Range} (narrow : r.Narrow) {i : Int} (inside : r.contains i = true) :
    int128.contains i = true := by
  obtain ⟨low, high⟩ := narrow
  obtain ⟨start, stop⟩ := contains_iff.1 inside
  exact contains_iff.2 ⟨by omega, by omega⟩

theorem clamp_of_contains {r : Range} {i : Int} (inside : r.contains i = true) : r.clamp i = i := by
  obtain ⟨low, high⟩ := contains_iff.1 inside
  rw [clamp, if_neg (by omega), if_neg (by omega)]

theorem Narrow.contains_clamp {r : Range} (narrow : r.Narrow) (i : Int) :
    r.contains (int128.clamp i) = r.contains i := by
  by_cases wide : int128.contains i = true
  next => rw [clamp_of_contains wide]
  next =>
    have outside : r.contains i = false := by
      cases inside : r.contains i with
      | true => exact absurd (narrow.wide inside) wide
      | false => rfl
    have clamped : r.contains (int128.clamp i) = false := by
      obtain ⟨low, high⟩ := narrow
      rw [contains_iff] at wide
      rw [Bool.eq_false_iff, ne_eq, contains_iff, clamp]
      split
      next => omega
      next =>
        split <;> omega
    rw [outside, clamped]

theorem read?_int128 {cs : List Char} {n : Int} :
    int128.read? cs = some n ↔ readInt? cs = some n ∧ int128.contains n = true := by
  have signed : int128.lo < 0 := by decide
  rw [read?, if_pos signed, Option.filter_eq_some_iff]

end Protogen.Number.Range

namespace Protogen.Json

open Number (Range Spells)

/-- The value is a number, or the text of a number, that is exactly the integer. -/
inductive Denotes : Json → Int → Prop
  | int (n : Int) : Denotes (.int n) n
  | double {x : Number.Double} {n : Int} (finite : x.exponentField ≠ 2047) (exact : x.value = n) :
    Denotes (.double x) n
  | text {s : String} {n : Int} (spelled : Spells s n) : Denotes (.string s) n

/-- Why a value is not an integer of the range. -/
inductive Refuses (r : Range) : Json → CodecError → Prop
  | int {n : Int} (outside : r.contains n = false) : Refuses r (.int n) (.overflow n)
  | double {x : Number.Double} {n : Int} (integral : (Json.double x).Denotes n)
    (outside : r.contains n = false) : Refuses r (.double x) (.overflow (Range.int128.clamp n))
  | fraction {x : Number.Double} (apart : ∀ n, ¬(Json.double x).Denotes n) :
    Refuses r (.double x) (.unexpectedJson "integer" (Json.double x).compact)
  | text {s : String} {n : Int} (spelled : Spells s n) (wide : Range.int128.contains n = true)
    (outside : r.contains n = false) : Refuses r (.string s) (.overflow n)
  | shape {s : String} (apart : ∀ n, Spells s n → Range.int128.contains n = false) :
    Refuses r (.string s) (.invalidLong s)
  | kind {v : Json} (number : v.kind ≠ "number") (text : v.kind ≠ "string") :
    Refuses r v (.unexpectedJson "integer" v.kind)

variable {r : Range} {x : Number.Double} {s : String} {n : Int}

theorem denotes_double_iff : (Json.double x).Denotes n ↔ x.toInt? = some n := by
  rw [Number.Double.toInt?_eq_some_iff]
  constructor
  next =>
    rintro (_ | ⟨finite, exact⟩)
    exact ⟨finite, exact⟩
  next =>
    rintro ⟨finite, exact⟩
    exact .double finite exact

theorem denotes_string_iff : (Json.string s).Denotes n ↔ Spells s n := by
  constructor
  next =>
    rintro (_ | _ | spelled)
    exact spelled
  next => exact .text

def narrowed (r : Range) (n stored : Int) : Except CodecError Int :=
  if r.contains n then .ok n else .error (.overflow stored)

theorem narrowed_eq_ok {stored m : Int} : narrowed r n stored = .ok m ↔ r.contains m = true ∧ n = m := by
  rw [narrowed]
  split
  next inside =>
    rw [Except.ok.injEq]
    constructor
    next =>
      rintro rfl
      exact ⟨inside, rfl⟩
    next => exact And.right
  next outside =>
    constructor
    next => exact fun impossible => nomatch impossible
    next =>
      rintro ⟨inside, rfl⟩
      exact absurd inside outside

theorem narrowed_eq_error {stored : Int} {e : CodecError} :
    narrowed r n stored = .error e ↔ r.contains n = false ∧ .overflow stored = e := by
  rw [narrowed]
  cases r.contains n <;> simp

theorem toIntegerIn_double (narrow : r.Narrow) (exact : x.toInt? = some n) :
    (Json.double x).toIntegerIn r = narrowed r n (Range.int128.clamp n) := by
  simp only [toIntegerIn, toInteger, exact]
  change (if r.contains (Range.int128.clamp n) then _ else _) = _
  rw [narrow.contains_clamp, narrowed]
  split
  next inside => rw [Range.clamp_of_contains (narrow.wide inside)]
  next => rfl

theorem toIntegerIn_fraction (apart : x.toInt? = none) :
    (Json.double x).toIntegerIn r = .error (.unexpectedJson "integer" (Json.double x).compact) := by
  simp only [toIntegerIn, toInteger, apart]
  rfl

theorem toIntegerIn_text (spelled : Spells s n) (wide : Range.int128.contains n = true) :
    (Json.string s).toIntegerIn r = narrowed r n n := by
  have read := Range.read?_int128.2 ⟨Text.readInt?_trim_iff.2 spelled, wide⟩
  simp only [toIntegerIn, toInteger, read]
  rfl

theorem toIntegerIn_shape (apart : ∀ n, Spells s n → Range.int128.contains n = false) :
    (Json.string s).toIntegerIn r = .error (.invalidLong s) := by
  have unread : Range.int128.read? (Text.trim s.toList) = none := by
    rw [Option.eq_none_iff_forall_ne_some]
    intro n read
    obtain ⟨found, wide⟩ := Range.read?_int128.1 read
    exact Bool.false_ne_true ((apart n (Text.readInt?_trim_iff.1 found)).symm.trans wide)
  simp only [toIntegerIn, toInteger, unread]
  rfl

theorem toIntegerIn_kind {v : Json} (number : v.kind ≠ "number") (text : v.kind ≠ "string") :
    v.toIntegerIn r = .error (.unexpectedJson "integer" v.kind) := by
  cases v with
  | null | bool | array | object => rfl
  | int | double => exact absurd rfl number
  | string => exact absurd rfl text

theorem spells_or_shape (s : String) :
    (∃ n, Spells s n ∧ Range.int128.contains n = true) ∨ ∀ n, Spells s n → Range.int128.contains n = false := by
  by_cases spelled : ∃ n, Spells s n ∧ Range.int128.contains n = true
  next => exact .inl spelled
  next =>
    refine .inr fun n found => Bool.eq_false_iff.2 fun wide => ?_
    exact spelled ⟨n, found, wide⟩

theorem toIntegerIn_eq_ok_iff (narrow : r.Narrow) {v : Json} :
    v.toIntegerIn r = .ok n ↔ r.contains n = true ∧ v.Denotes n := by
  cases v with
  | null | bool | array | object =>
    rw [toIntegerIn_kind (by simp [kind]) (by simp [kind])]
    constructor
    next => exact fun impossible => nomatch impossible
    next => exact fun found => nomatch found.2
  | int i =>
    change narrowed r i i = .ok n ↔ _
    rw [narrowed_eq_ok]
    constructor
    next =>
      rintro ⟨inside, rfl⟩
      exact ⟨inside, .int i⟩
    next =>
      rintro ⟨inside, ⟨⟩⟩
      exact ⟨inside, rfl⟩
  | double x =>
    rw [denotes_double_iff]
    cases exact : x.toInt? with
    | some m => rw [toIntegerIn_double narrow exact, narrowed_eq_ok, Option.some.injEq]
    | none => simp [toIntegerIn_fraction exact]
  | string s =>
    rw [denotes_string_iff]
    rcases spells_or_shape s with ⟨m, spelled, wide⟩ | apart
    next =>
      rw [toIntegerIn_text spelled wide, narrowed_eq_ok]
      constructor
      next =>
        rintro ⟨inside, rfl⟩
        exact ⟨inside, spelled⟩
      next => exact fun found => ⟨found.1, spelled.unique found.2⟩
    next =>
      rw [toIntegerIn_shape apart]
      constructor
      next => exact fun impossible => nomatch impossible
      next =>
        rintro ⟨inside, spelled⟩
        exact absurd (narrow.wide inside) (Bool.eq_false_iff.1 (apart n spelled))

theorem toIntegerIn_eq_error_iff (narrow : r.Narrow) {v : Json} {e : CodecError} :
    v.toIntegerIn r = .error e ↔ Refuses r v e := by
  constructor
  next =>
    intro refused
    cases v with
    | null | bool | array | object =>
      rw [toIntegerIn_kind (by simp [kind]) (by simp [kind])] at refused
      cases refused
      exact .kind (by simp [kind]) (by simp [kind])
    | int i =>
      obtain ⟨outside, rfl⟩ := narrowed_eq_error.1 refused
      exact .int outside
    | double x =>
      cases exact : x.toInt? with
      | some n =>
        rw [toIntegerIn_double narrow exact] at refused
        obtain ⟨outside, rfl⟩ := narrowed_eq_error.1 refused
        exact .double (denotes_double_iff.2 exact) outside
      | none =>
        rw [toIntegerIn_fraction exact] at refused
        cases refused
        refine .fraction fun n integral => ?_
        exact nomatch exact.symm.trans (denotes_double_iff.1 integral)
    | string s =>
      rcases spells_or_shape s with ⟨n, spelled, wide⟩ | apart
      next =>
        rw [toIntegerIn_text spelled wide] at refused
        obtain ⟨outside, rfl⟩ := narrowed_eq_error.1 refused
        exact .text spelled wide outside
      next =>
        rw [toIntegerIn_shape apart] at refused
        cases refused
        exact .shape apart
  next =>
    intro refused
    cases refused with
    | int outside => exact narrowed_eq_error.2 ⟨outside, rfl⟩
    | double integral outside =>
      rw [toIntegerIn_double narrow (denotes_double_iff.1 integral)]
      exact narrowed_eq_error.2 ⟨outside, rfl⟩
    | fraction apart =>
      refine toIntegerIn_fraction (Option.eq_none_iff_forall_ne_some.2 fun n exact => ?_)
      exact apart n (denotes_double_iff.2 exact)
    | text spelled wide outside =>
      rw [toIntegerIn_text spelled wide]
      exact narrowed_eq_error.2 ⟨outside, rfl⟩
    | shape apart => exact toIntegerIn_shape apart
    | kind number text => exact toIntegerIn_kind number text

theorem spells_toString (n : Int) : Spells (toString n) n := by
  have digits : (toString n).toList = Number.intText n := by
    cases n with
    | ofNat n =>
      have natural : ¬Int.ofNat n < 0 := Int.not_lt.2 (Int.natCast_nonneg n)
      rw [Number.intText, if_neg natural]
      exact String.toList_ofList
    | negSucc n =>
      have text : toString (Int.negSucc n) = "-" ++ String.ofList (Number.natText (n + 1)) := rfl
      rw [Number.intText, if_pos (Int.negSucc_lt_zero n), text, String.toList_append,
        String.toList_ofList, String.toList_ofList]
      rfl
  rw [← Text.readInt?_trim_iff, digits, Text.trim_intText, Number.readInt?_intText]

theorem narrow_of_mem (fixed : r ∈ [Range.int32, .uint32, .int64, .uint64]) : r.Narrow := by
  simp only [List.mem_cons, List.not_mem_nil, or_false] at fixed
  rcases fixed with rfl | rfl | rfl | rfl <;> exact ⟨by decide, by decide⟩

theorem reads_integers_in_range {r : Range} (fixed : r ∈ [Range.int32, .uint32, .int64, .uint64]) :
    (∀ (v : Json) n, v.toIntegerIn r = .ok n ↔ r.contains n = true ∧ v.Denotes n) ∧
      (∀ (v : Json) e, v.toIntegerIn r = .error e ↔ Refuses r v e) ∧
        ∀ n : Int, -2 ^ 63 ≤ n → n < 2 ^ 64 →
          (Json.int n).toIntegerIn r = (Json.string (toString n)).toIntegerIn r := by
  have narrow := narrow_of_mem fixed
  refine ⟨fun v n => toIntegerIn_eq_ok_iff narrow, fun v e => toIntegerIn_eq_error_iff narrow, ?_⟩
  intro n low high
  have wide : Range.int128.contains n = true := by
    refine Range.contains_iff.2 ⟨?_, ?_⟩ <;> simp only [Range.int128] <;> omega
  exact (toIntegerIn_text (spells_toString n) wide).symm

theorem reads_integers_in_int32 :
    Range.int32 ∈ [Range.int32, .uint32, .int64, .uint64] ∧
      (Json.string " +2147483647\n").toIntegerIn .int32 = .ok 2147483647 := by
  have digits : Number.Digits "2147483647".toList := ⟨by simp, by simp⟩
  have spelled : Spells " +2147483647\n" 2147483647 :=
    ⟨[' '], '+' :: "2147483647".toList, ['\n'], rfl, .plus digits, by simp; decide, by simp; decide⟩
  have fixed := List.mem_cons_self (a := Range.int32) (l := [.uint32, .int64, .uint64])
  exact ⟨fixed, ((reads_integers_in_range fixed).1 _ _).2 ⟨by decide, .text spelled⟩⟩

end Protogen.Json
