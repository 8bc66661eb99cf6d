import Protogen.Codec.Base64
import Protogen.Proofs.Number.Numeral

set_option autoImplicit false

namespace Protogen.Base64

def alphabets : List Alphabet := [standard, urlSafe]

theorem standard_mem : standard ∈ alphabets :=
  List.mem_cons_self ..

theorem urlSafe_mem : urlSafe ∈ alphabets :=
  List.mem_cons_of_mem _ (List.mem_singleton_self _)

theorem value?_digit : ∀ a ∈ alphabets, ∀ n < 64, a.value? (a.digit n) = some n := by
  decide

theorem digit_ne_pad : ∀ a ∈ alphabets, ∀ n < 64, a.digit n ≠ '=' := by
  decide

theorem ofNat_toNat (x : UInt8) {n : Nat} (same : n % 256 = x.toNat) : UInt8.ofNat n = x := by
  rw [← UInt8.toNat_inj, UInt8.toNat_ofNat']
  exact same

section Digits

variable {a : Alphabet}

theorem exists_digit_of_mem {c : Char} {bytes : List UInt8} (member : c ∈ a.digits bytes) :
    ∃ n < 64, c = a.digit n := by
  -- Each digit stands for six bits, in groups of up to three bytes.
  fun_induction Alphabet.digits a bytes with
  | case1 => cases member
  | case2 x n =>
    have byte : x.toNat < 256 := x.toNat_lt
    simp only [List.mem_cons, List.not_mem_nil, or_false] at member
    rcases member with rfl | rfl <;> exact ⟨_, by omega, rfl⟩
  | case3 x y n =>
    have first : x.toNat < 256 := x.toNat_lt
    have second : y.toNat < 256 := y.toNat_lt
    simp only [List.mem_cons, List.not_mem_nil, or_false] at member
    rcases member with rfl | rfl | rfl <;> exact ⟨_, by omega, rfl⟩
  | case4 x y z bytes n ih =>
    have first : x.toNat < 256 := x.toNat_lt
    have second : y.toNat < 256 := y.toNat_lt
    have third : z.toNat < 256 := z.toNat_lt
    simp only [List.mem_cons] at member
    rcases member with rfl | rfl | rfl | rfl | member
    case inr.inr.inr.inr => exact ih member
    all_goals exact ⟨_, by omega, rfl⟩

theorem ne_pad_of_mem_digits (known : a ∈ alphabets) {c : Char} {bytes : List UInt8}
    (member : c ∈ a.digits bytes) : c ≠ '=' := by
  obtain ⟨n, small, rfl⟩ := exists_digit_of_mem member
  exact digit_ne_pad a known n small

theorem bytes?_digits (known : a ∈ alphabets) (bytes : List UInt8) :
    a.bytes? (a.digits bytes) = some bytes := by
  have value {n : Nat} (small : n < 64) : a.value? (a.digit n) = some n := value?_digit a known n small
  fun_induction Alphabet.digits a bytes with
  | case1 => rfl
  | case2 x n =>
    have byte : x.toNat < 256 := x.toNat_lt
    have whole : n / 64 * 64 + n % 64 = n := by omega
    have spare : n % 16 = 0 := by omega
    simp only [Alphabet.bytes?, value (n := n / 64) (by omega), value (n := n % 64) (by omega), whole, spare,
      Option.bind_eq_bind, Option.bind_some, if_true]
    rw [ofNat_toNat x (by omega)]
  | case3 x y n =>
    have first : x.toNat < 256 := x.toNat_lt
    have second : y.toNat < 256 := y.toNat_lt
    have whole : (n / 4096 * 64 + n / 64 % 64) * 64 + n % 64 = n := by omega
    have spare : n % 4 = 0 := by omega
    simp only [Alphabet.bytes?, value (n := n / 4096) (by omega), value (n := n / 64 % 64) (by omega),
      value (n := n % 64) (by omega), whole, spare, Option.bind_eq_bind, Option.bind_some, if_true]
    rw [ofNat_toNat x (by omega), ofNat_toNat y (by omega)]
  | case4 x y z bytes n ih =>
    have first : x.toNat < 256 := x.toNat_lt
    have second : y.toNat < 256 := y.toNat_lt
    have third : z.toNat < 256 := z.toNat_lt
    have whole : ((n / 262144 * 64 + n / 4096 % 64) * 64 + n / 64 % 64) * 64 + n % 64 = n := by omega
    simp only [Alphabet.bytes?, value (n := n / 262144) (by omega), value (n := n / 4096 % 64) (by omega),
      value (n := n / 64 % 64) (by omega), value (n := n % 64) (by omega), whole, ih, Option.bind_eq_bind,
      Option.bind_some]
    rw [ofNat_toNat x (by omega), ofNat_toNat y (by omega), ofNat_toNat z (by omega)]

theorem digit_of_value? {c : Char} {n : Nat} (value : a.value? c = some n) : n < 64 ∧ a.digit n = c := by
  -- Within a range, a character is the first one moved on by as much as its code is greater.
  have within {first last : Char} (range : first ≤ c ∧ c ≤ last) :
      first.toNat ≤ c.toNat ∧ c.toNat ≤ last.toNat ∧ Char.ofNat (first.toNat + (c.toNat - first.toNat)) = c := by
    have bounds : first.toNat ≤ c.toNat ∧ c.toNat ≤ last.toNat := range
    rw [Nat.add_sub_cancel' bounds.1, Char.ofNat_toNat]
    exact ⟨bounds.1, bounds.2, rfl⟩
  rw [Alphabet.value?] at value
  split at value
  next capital =>
    obtain ⟨low, high, same⟩ := within capital
    cases value
    have small : c.toNat - 'A'.toNat < 26 := by
      simp only [Char.reduceToNat] at low high ⊢
      omega
    rw [Alphabet.digit, if_pos small]
    exact ⟨by omega, same⟩
  split at value
  next letter =>
    obtain ⟨low, high, same⟩ := within letter
    cases value
    have small : c.toNat - 'a'.toNat < 26 := by
      simp only [Char.reduceToNat] at low high ⊢
      omega
    rw [Alphabet.digit, if_neg (by omega), if_pos (by omega), Nat.add_sub_cancel]
    exact ⟨by omega, same⟩
  split at value
  next digit =>
    obtain ⟨low, high, same⟩ := within digit
    cases value
    have small : c.toNat - '0'.toNat < 10 := by
      simp only [Char.reduceToNat] at low high ⊢
      omega
    rw [Alphabet.digit, if_neg (by omega), if_neg (by omega), if_pos (by omega), Nat.add_sub_cancel]
    exact ⟨by omega, same⟩
  split at value
  next last =>
    cases value
    exact ⟨by decide, last.symm⟩
  split at value
  next last =>
    cases value
    exact ⟨by decide, last.symm⟩
  next => cases value

theorem digits_of_bytes? {cs : List Char} {bytes : List UInt8} (read : a.bytes? cs = some bytes) :
    a.digits bytes = cs := by
  -- The groups of four digits are taken one after the other, and the last may be shorter.
  fun_induction Alphabet.bytes? a cs generalizing bytes with
  | case1 =>
    cases read
    rfl
  | case2 => cases read
  | case3 c d =>
    simp only [Option.bind_eq_bind, Option.bind_eq_some_iff] at read
    obtain ⟨v, value, w, value', read⟩ := read
    obtain ⟨small, rfl⟩ := digit_of_value? value
    obtain ⟨small', rfl⟩ := digit_of_value? value'
    generalize number : v * 64 + w = n at read
    split at read
    next spare =>
      cases read
      have whole : n / 16 % 256 * 16 = n := by omega
      have sextets : n / 64 = v ∧ n % 64 = w := by omega
      simp only [Alphabet.digits, UInt8.toNat_ofNat', Nat.reducePow, whole, sextets]
    next => cases read
  | case4 c d e =>
    simp only [Option.bind_eq_bind, Option.bind_eq_some_iff] at read
    obtain ⟨v, value, w, value', x, value'', read⟩ := read
    obtain ⟨small, rfl⟩ := digit_of_value? value
    obtain ⟨small', rfl⟩ := digit_of_value? value'
    obtain ⟨small'', rfl⟩ := digit_of_value? value''
    generalize number : (v * 64 + w) * 64 + x = n at read
    split at read
    next spare =>
      cases read
      have whole : (n / 1024 % 256 * 256 + n / 4 % 256) * 4 = n := by omega
      have sextets : n / 4096 = v ∧ n / 64 % 64 = w ∧ n % 64 = x := by omega
      simp only [Alphabet.digits, UInt8.toNat_ofNat', Nat.reducePow, whole, sextets]
    next => cases read
  | case5 c d e f cs ih =>
    simp only [Option.bind_eq_bind, Option.bind_eq_some_iff] at read
    obtain ⟨v, value, w, value', x, value'', y, value₃, rest, others, read⟩ := read
    obtain ⟨small, rfl⟩ := digit_of_value? value
    obtain ⟨small', rfl⟩ := digit_of_value? value'
    obtain ⟨small'', rfl⟩ := digit_of_value? value''
    obtain ⟨small₃, rfl⟩ := digit_of_value? value₃
    cases read
    generalize number : ((v * 64 + w) * 64 + x) * 64 + y = n
    have whole : (n / 65536 % 256 * 256 + n / 256 % 256) * 256 + n % 256 = n := by omega
    have sextets : n / 262144 = v ∧ n / 4096 % 64 = w ∧ n / 64 % 64 = x ∧ n % 64 = y := by omega
    simp only [Alphabet.digits, UInt8.toNat_ofNat', Nat.reducePow, whole, sextets, ih others]

theorem bytes?_eq_some_iff (known : a ∈ alphabets) {cs : List Char} {bytes : List UInt8} :
    a.bytes? cs = some bytes ↔ cs = a.digits bytes := by
  constructor
  next => exact fun read => (digits_of_bytes? read).symm
  next =>
    rintro rfl
    exact bytes?_digits known bytes

end Digits

-- A digit of the standard alphabet is no digit of the other one, or has the same value there.
theorem value?_shared : ∀ n < 64,
    urlSafe.value? (standard.digit n) = none ∨ urlSafe.value? (standard.digit n) = some n := by
  decide

theorem bytes?_congr {a b : Alphabet} {cs : List Char} (same : ∀ c ∈ cs, a.value? c = b.value? c) :
    a.bytes? cs = b.bytes? cs := by
  fun_induction Alphabet.bytes? a cs with
  | case1 | case2 => rfl
  | case3 c d => simp only [Alphabet.bytes?, same c (by simp), same d (by simp)]
  | case4 c d e => simp only [Alphabet.bytes?, same c (by simp), same d (by simp), same e (by simp)]
  | case5 c d e f cs ih =>
    have rest : ∀ g ∈ cs, a.value? g = b.value? g := fun g member => same g (by simp [member])
    simp only [Alphabet.bytes?, same c (by simp), same d (by simp), same e (by simp), same f (by simp), ih rest]

-- Digits that are those of some bytes in either alphabet are those of the same bytes.
theorem eq_of_digits {bytes bytes' : List UInt8} (same : standard.digits bytes = urlSafe.digits bytes') :
    bytes = bytes' := by
  have values : ∀ c ∈ standard.digits bytes, standard.value? c = urlSafe.value? c := by
    intro c member
    obtain ⟨m, small', also⟩ := exists_digit_of_mem (same ▸ member)
    obtain ⟨n, small, rfl⟩ := exists_digit_of_mem member
    have known := value?_digit urlSafe urlSafe_mem m small'
    rw [← also] at known
    rcases value?_shared n small with other | shared
    next => simp [other] at known
    next => rw [shared, value?_digit standard standard_mem n small]
  have read := bytes?_congr values
  rw [bytes?_digits standard_mem, same, bytes?_digits urlSafe_mem] at read
  exact Option.some.inj read

theorem decode?_eq_some_iff {s : String} {b : ByteArray} : decode? s = some b ↔
    ∃ a ∈ alphabets, Text.dropEndWhile (· = '=') s.toList = a.digits b.data.toList := by
  have bytes (bs : List UInt8) : (⟨bs.toArray⟩ : ByteArray) = b ↔ bs = b.data.toList := by
    constructor
    next =>
      rintro rfl
      rfl
    next =>
      rintro rfl
      rfl
  rw [decode?]
  change Option.map _ (standard.bytes? (Text.dropEndWhile _ _) <|> urlSafe.bytes? (Text.dropEndWhile _ _)) = _ ↔ _
  generalize Text.dropEndWhile (fun c => decide (c = '=')) s.toList = cs
  simp only [Option.map_eq_some_iff, bytes, exists_eq_right, alphabets, List.mem_cons, List.not_mem_nil, or_false,
    exists_eq_or_imp, exists_eq_left]
  cases read : standard.bytes? cs with
  | none =>
    have other : cs ≠ standard.digits b.data.toList := fun same => by
      rw [same, bytes?_digits standard_mem] at read
      cases read
    simp only [other, false_or, ← bytes?_eq_some_iff urlSafe_mem]
    rfl
  | some bs =>
    have written := (bytes?_eq_some_iff standard_mem).1 read
    constructor
    next =>
      intro own
      cases own
      exact .inl written
    next =>
      -- What the other alphabet would read is the same.
      intro either
      apply congrArg some
      rcases either with same | same
      next => exact Option.some.inj (read.symm.trans ((bytes?_eq_some_iff standard_mem).2 same))
      next => exact eq_of_digits (written.symm.trans same)

theorem decode?_encode (b : ByteArray) : decode? (encode b) = some b := by
  apply decode?_eq_some_iff.2
  refine ⟨standard, standard_mem, ?_⟩
  rw [encode, String.toList_ofList, Text.dropEndWhile_append]
  next => exact fun c member => by simpa using ne_pad_of_mem_digits standard_mem member
  next => exact fun c member => by simpa using (List.mem_replicate.1 member).2

end Protogen.Base64
