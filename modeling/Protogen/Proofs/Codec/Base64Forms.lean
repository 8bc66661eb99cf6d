import Protogen.Codec.JsonMessage
import Protogen.Proofs.Codec.Base64

set_option autoImplicit false

namespace Protogen.Base64

def bits (width n : Nat) : List Bool :=
  (List.range width).reverse.map n.testBit

def ofBits (bs : List Bool) : Nat :=
  bs.foldl (fun n b => 2 * n + b.toNat) 0

def spell (table : List Char) : List Bool → List Char
  | [] => []
  | b :: bs =>
    table.getD (ofBits (((b :: bs).take 6).rightpad 6 false)) '=' :: spell table ((b :: bs).drop 6)
termination_by bs => bs.length

def standardTable : String :=
  "ABCDEFGHIJKLMNOPQRSTUVWXYZabcdefghijklmnopqrstuvwxyz0123456789+/"

def urlSafeTable : String :=
  "ABCDEFGHIJKLMNOPQRSTUVWXYZabcdefghijklmnopqrstuvwxyz0123456789-_"

def tables : List String := [standardTable, urlSafeTable]

def unpadded (table : String) (b : ByteArray) : String :=
  String.ofList (spell table.toList (b.data.toList.flatMap fun x => bits 8 x.toNat))

def withPadding (text : String) : String :=
  text ++ String.ofList (List.replicate ((4 - text.length % 4) % 4) '=')

def withoutPadding (text : String) : String :=
  String.ofList (Text.dropEndWhile (· = '=') text.toList)

-- Bits

theorem bits_append {m v : Nat} (small : m < 2 ^ v) (w n : Nat) :
    bits w n ++ bits v m = bits (w + v) (2 ^ v * n + m) := by
  have low : ∀ i ∈ List.range v, (2 ^ v * n + m).testBit i = m.testBit i := by
    intro i member
    rw [Nat.testBit_two_pow_mul_add _ small, if_pos (List.mem_range.1 member)]
  have high : ∀ i ∈ List.range w, (2 ^ v * n + m).testBit (v + i) = n.testBit i := by
    intro i _
    rw [Nat.testBit_two_pow_mul_add _ small, if_neg (by omega), Nat.add_sub_cancel_left]
  simp only [bits, Nat.add_comm w v, List.range_add, List.reverse_append, List.map_append, ← List.map_reverse,
    List.map_map]
  refine congrArg₂ (· ++ ·) (List.map_congr_left fun i member => ?_) (List.map_congr_left fun i member => ?_)
  next => exact (high i (List.mem_reverse.1 member)).symm
  next => exact (low i (List.mem_reverse.1 member)).symm

theorem ofBits_bits {w n : Nat} (small : n < 2 ^ w) : ofBits (bits w n) = n := by
  induction w generalizing n with
  | zero =>
    have zero : n = 0 := by simpa using small
    rw [zero]
    rfl
  | succ w ih =>
    -- The last bit is the lowest one.
    have last : n % 2 < 2 ^ 1 := Nat.mod_lt _ (by decide)
    have split := bits_append last w (n / 2)
    rw [Nat.pow_one, Nat.div_add_mod] at split
    have half : n / 2 < 2 ^ w := by
      rw [Nat.pow_succ] at small
      omega
    rw [← split, ofBits, List.foldl_append]
    change 2 * ofBits (bits w (n / 2)) + ((n % 2).testBit 0).toNat = n
    have bit : ((n % 2).testBit 0).toNat = n % 2 := by
      rcases Nat.mod_two_eq_zero_or_one n with even | odd
      next => rw [even]; rfl
      next => rw [odd]; rfl
    rw [ih half, bit, Nat.div_add_mod]

theorem length_bits (w n : Nat) : (bits w n).length = w := by
  simp [bits]

theorem bits_zero (w : Nat) : bits w 0 = List.replicate w false := by
  refine List.eq_replicate_iff.2 ⟨length_bits w 0, fun b member => ?_⟩
  obtain ⟨i, -, rfl⟩ := List.mem_map.1 member
  exact Nat.zero_testBit i

-- Digits

theorem spell_nil (table : List Char) : spell table [] = [] := by
  rw [spell]

theorem spell_eq (table : List Char) {bs : List Bool} (some : bs ≠ []) :
    spell table bs = table.getD (ofBits ((bs.take 6).rightpad 6 false)) '=' :: spell table (bs.drop 6) := by
  obtain ⟨b, bs, rfl⟩ := List.exists_cons_of_ne_nil some
  rw [spell]

theorem bits_ne_nil {w : Nat} (some : 0 < w) (n : Nat) : bits w n ≠ [] := by
  apply List.ne_nil_of_length_pos
  rwa [length_bits]

theorem spell_cons (table : List Char) {n : Nat} (small : n < 64) (bs : List Bool) :
    spell table (bits 6 n ++ bs) = table.getD n '=' :: spell table bs := by
  have first : (bits 6 n ++ bs).take 6 = bits 6 n := List.take_left' (length_bits 6 n)
  have rest : (bits 6 n ++ bs).drop 6 = bs := List.drop_left' (length_bits 6 n)
  have group : ofBits ((bits 6 n).rightpad 6 false) = n := ofBits_bits (w := 6) small
  rw [spell_eq table (List.append_ne_nil_of_left_ne_nil (bits_ne_nil (by decide) n) bs), first, rest, group]

theorem spell_last (table : List Char) {w v n : Nat} (some : 0 < w) (six : w + v = 6) (small : n < 2 ^ w) :
    spell table (bits w n) = [table.getD (2 ^ v * n) '='] := by
  have short : (bits w n).length ≤ 6 := by
    rw [length_bits]
    omega
  have filled : (bits w n).rightpad 6 false = bits 6 (2 ^ v * n) := by
    have spare : 6 - w = v := by omega
    rw [List.rightpad, length_bits, spare, ← bits_zero, bits_append (Nat.two_pow_pos v), six, Nat.add_zero]
  have whole : 2 ^ v * n < 2 ^ 6 := by
    rw [← six, Nat.add_comm, Nat.pow_add]
    exact Nat.mul_lt_mul_of_pos_left small (Nat.two_pow_pos v)
  rw [spell_eq table (bits_ne_nil some n), List.take_of_length_le short, List.drop_of_length_le short, filled,
    ofBits_bits whole, spell_nil]

theorem digits_eq_spell {a : Alphabet} {table : List Char} (same : ∀ n < 64, table.getD n '=' = a.digit n)
    (bytes : List UInt8) : a.digits bytes = spell table (bytes.flatMap fun x => bits 8 x.toNat) := by
  fun_induction Alphabet.digits a bytes with
  | case1 => rw [List.flatMap_nil, spell_nil]
  | case2 x n =>
    have byte : x.toNat < 256 := x.toNat_lt
    have sextets : bits 8 x.toNat = bits 6 (n / 64) ++ bits 2 (n % 64 / 16) := by
      rw [bits_append (by omega)]
      congr 1
      omega
    have last : 2 ^ 4 * (n % 64 / 16) = n % 64 := by omega
    rw [List.flatMap_singleton, sextets, spell_cons table (by omega),
      spell_last table (v := 4) (by decide) rfl (by omega),
      last, same _ (by omega), same _ (by omega)]
  | case3 x y n =>
    have first : x.toNat < 256 := x.toNat_lt
    have second : y.toNat < 256 := y.toNat_lt
    have sextets : bits 8 x.toNat ++ bits 8 y.toNat =
        bits 6 (n / 4096) ++ (bits 6 (n / 64 % 64) ++ bits 4 (n % 64 / 4)) := by
      rw [bits_append second, bits_append (w := 6) (v := 4) (by omega), bits_append (by omega)]
      congr 1
      omega
    have last : 2 ^ 2 * (n % 64 / 4) = n % 64 := by omega
    rw [List.flatMap_cons, List.flatMap_singleton, sextets, spell_cons table (by omega), spell_cons table (by omega),
      spell_last table (v := 2) (by decide) rfl (by omega), last, same _ (by omega), same _ (by omega),
      same _ (by omega)]
  | case4 x y z bytes n ih =>
    have first : x.toNat < 256 := x.toNat_lt
    have second : y.toNat < 256 := y.toNat_lt
    have third : z.toNat < 256 := z.toNat_lt
    have group : bits 8 x.toNat ++ (bits 8 y.toNat ++ bits 8 z.toNat) =
        bits 6 (n / 262144) ++ (bits 6 (n / 4096 % 64) ++ (bits 6 (n / 64 % 64) ++ bits 6 (n % 64))) := by
      rw [bits_append third, bits_append (by omega), bits_append (w := 6) (v := 6) (by omega),
        bits_append (w := 6) (v := 12) (by omega), bits_append (by omega)]
      congr 1
      omega
    have sextets (rest : List Bool) : bits 8 x.toNat ++ (bits 8 y.toNat ++ (bits 8 z.toNat ++ rest)) =
        bits 6 (n / 262144) ++ (bits 6 (n / 4096 % 64) ++ (bits 6 (n / 64 % 64) ++ (bits 6 (n % 64) ++ rest))) := by
      simpa only [List.append_assoc] using congrArg (· ++ rest) group
    rw [List.flatMap_cons, List.flatMap_cons, List.flatMap_cons, sextets, spell_cons table (by omega),
      spell_cons table (by omega), spell_cons table (by omega), spell_cons table (by omega), same _ (by omega),
      same _ (by omega), same _ (by omega), same _ (by omega), ih]

theorem getD_standardTable : ∀ n < 64, standardTable.toList.getD n '=' = standard.digit n := by
  decide

theorem getD_urlSafeTable : ∀ n < 64, urlSafeTable.toList.getD n '=' = urlSafe.digit n := by
  decide

theorem length_digits (a : Alphabet) (bytes : List UInt8) : (a.digits bytes).length = (4 * bytes.length + 2) / 3 := by
  fun_induction Alphabet.digits a bytes with
  | case1 | case2 | case3 => simp
  | case4 x y z bytes n ih =>
    simp only [List.length_cons, ih]
    omega

-- Forms

theorem unpadded_standardTable (b : ByteArray) :
    unpadded standardTable b = String.ofList (standard.digits b.data.toList) := by
  rw [unpadded, digits_eq_spell getD_standardTable]

theorem unpadded_urlSafeTable (b : ByteArray) :
    unpadded urlSafeTable b = String.ofList (urlSafe.digits b.data.toList) := by
  rw [unpadded, digits_eq_spell getD_urlSafeTable]

theorem exists_table_iff {b : ByteArray} {text : String} : (∃ table ∈ tables, text = unpadded table b) ↔
    ∃ a ∈ alphabets, text = String.ofList (a.digits b.data.toList) := by
  simp only [tables, alphabets, List.mem_cons, List.not_mem_nil, or_false, exists_eq_or_imp, exists_eq_left,
    unpadded_standardTable, unpadded_urlSafeTable]

theorem decode?_iff_withoutPadding {b : ByteArray} {text : String} :
    decode? text = some b ↔ ∃ table ∈ tables, withoutPadding text = unpadded table b := by
  rw [decode?_eq_some_iff, exists_table_iff]
  simp only [withoutPadding, String.ofList_inj]

theorem withoutPadding_append {a : Alphabet} (known : a ∈ alphabets) (bytes : List UInt8) (n : Nat) :
    withoutPadding (String.ofList (a.digits bytes) ++ String.ofList (List.replicate n '=')) =
      String.ofList (a.digits bytes) := by
  rw [withoutPadding, String.toList_append, String.toList_ofList, String.toList_ofList, Text.dropEndWhile_append]
  next => exact fun c member => by simpa using ne_pad_of_mem_digits known member
  next => exact fun c member => by simpa using (List.mem_replicate.1 member).2

theorem withoutPadding_unpadded {table : String} (known : table ∈ tables) (b : ByteArray) (n : Nat) :
    withoutPadding (unpadded table b ++ String.ofList (List.replicate n '=')) = unpadded table b := by
  obtain ⟨a, alphabet, digits⟩ := exists_table_iff.1 ⟨table, known, rfl⟩
  rw [digits, withoutPadding_append alphabet]

theorem encode_eq (b : ByteArray) : encode b = withPadding (unpadded standardTable b) := by
  have signs : (3 - b.data.toList.length % 3) % 3 =
      (4 - (standard.digits b.data.toList).length % 4) % 4 := by
    rw [length_digits]
    generalize b.data.toList.length = n
    have thirds : n % 3 = 0 ∨ n % 3 = 1 ∨ n % 3 = 2 := by omega
    rcases thirds with none | one | two <;> omega
  rw [encode, withPadding, unpadded_standardTable, String.length_ofList, ← signs, String.ofList_append]
  rfl

theorem read_bytes_iff {b : ByteArray} {text : String} :
    JsonCodec.bytes.read (.string text) = .ok b ↔ decode? text = some b := by
  simp only [JsonCodec.bytes, Json.toText, bind, Except.bind]
  cases decode? text <;> simp [pure, Except.pure, throw, throwThe, MonadExceptOf.throw]

/-- Bytes are read from each of their four forms, whatever is read is the text of what it gives apart from the signs
at its end, and bytes are written in the standard form with padding; and so are blobs in JSON. -/
theorem reads_every_form (b : ByteArray) :
    (∀ table ∈ tables, decode? (unpadded table b) = some b ∧ decode? (withPadding (unpadded table b)) = some b) ∧
    (∀ text, decode? text = some b → ∃ table ∈ tables, withoutPadding text = unpadded table b) ∧
    encode b = withPadding (unpadded standardTable b) ∧
    (∀ text, JsonCodec.bytes.read (.string text) = .ok b ↔ decode? text = some b) ∧
    JsonCodec.bytes.write b = .string (encode b) := by
  refine ⟨fun table known => ?_, fun text => decode?_iff_withoutPadding.1, encode_eq b, fun _ => read_bytes_iff, rfl⟩
  have bare := withoutPadding_unpadded known b 0
  rw [List.replicate_zero, String.ofList_nil, String.append_empty] at bare
  exact ⟨decode?_iff_withoutPadding.2 ⟨table, known, bare⟩,
    decode?_iff_withoutPadding.2 ⟨table, known, withoutPadding_unpadded known b _⟩⟩

theorem reads_every_form_signs :
    urlSafeTable ∈ tables ∧ decode? "-_8" = some ⟨#[251, 255]⟩ ∧ decode? "-_8=" = some ⟨#[251, 255]⟩ ∧
      ∃ table ∈ tables, "-_8" = unpadded table ⟨#[251, 255]⟩ := by
  have known : urlSafeTable ∈ tables := List.mem_cons_of_mem _ (List.mem_singleton_self _)
  have text : unpadded urlSafeTable ⟨#[251, 255]⟩ = "-_8" := by
    rw [unpadded_urlSafeTable]
    rfl
  obtain ⟨forms, read, -⟩ := reads_every_form ⟨#[251, 255]⟩
  obtain ⟨bare, padded⟩ := forms urlSafeTable known
  rw [text] at bare padded
  exact ⟨known, bare, padded, read "-_8=" padded⟩

end Protogen.Base64
