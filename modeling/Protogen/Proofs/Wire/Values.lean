import Protogen.Proofs.Wire.Varint

set_option autoImplicit false

namespace Protogen.Wire

open Number (Double)
open Reader

theorem toNat_toUInt64 (i : Int64) : (i.toUInt64.toNat : Int) =
    if 0 ≤ i.toInt then i.toInt else i.toInt + 18446744073709551616 := by
  have value := BitVec.toInt_eq_toNat_cond i.toBitVec
  have signed : i.toInt = i.toBitVec.toInt := rfl
  have unsigned : i.toUInt64.toNat = i.toBitVec.toNat := rfl
  have bound := i.toBitVec.isLt
  rw [signed, unsigned]
  split at value <;> split <;> omega

theorem ofNat_toUInt64 (i : Int64) : Int64.ofNat i.toUInt64.toNat = i := by
  apply Int64.toInt_inj.1
  have value := toNat_toUInt64 i
  have low := i.le_toInt
  have high := i.toInt_lt
  rw [Int64.toInt_ofNat', value, Int.bmod_def]
  simp only [Int64.size]
  split <;> split <;> omega

theorem ofNat_toInt64 (i : Int32) : Int32.ofNat i.toInt64.toUInt64.toNat = i := by
  apply Int32.toInt_inj.1
  have value := toNat_toUInt64 i.toInt64
  have low := i.le_toInt
  have high := i.toInt_lt
  rw [Int32.toInt_toInt64] at value
  rw [Int32.toInt_ofNat', value, Int.bmod_def]
  simp only [Int32.size]
  split <;> split <;> omega

theorem toInt64_ofNat {n : Nat} (small : n < 2147483648) :
    (Int32.ofNat n).toInt64.toUInt64.toNat = n := by
  have value := toNat_toUInt64 (Int32.ofNat n).toInt64
  rw [Int32.toInt_toInt64, Int32.toInt_ofNat', Int.bmod_def] at value
  simp only [Int32.size] at value
  split at value <;> split at value <;> omega

theorem length_littleEndianBytes (k n : Nat) : (littleEndianBytes k n).length = k := by
  induction k generalizing n with
  | zero => rfl
  | succ k ih => simp [littleEndianBytes, ih]

theorem littleEndian_bytes {k n : Nat} (fits : n < 256 ^ k) :
    Read.littleEndian (littleEndianBytes k n) = n := by
  induction k generalizing n with
  | zero =>
    have zero : n = 0 := by simpa using fits
    rw [zero]
    rfl
  | succ k ih =>
    have rest : n / 256 < 256 ^ k := by
      rw [Nat.div_lt_iff_lt_mul (by decide)]
      rwa [← Nat.pow_succ]
    have low : (UInt8.ofNat (n % 256)).toNat = n % 256 :=
      UInt8.toNat_ofNat_of_lt' (Nat.mod_lt n (by decide))
    change (UInt8.ofNat (n % 256)).toNat + 256 * Read.littleEndian (littleEndianBytes k (n / 256)) = n
    rw [low, ih rest, Nat.mod_add_div]

theorem toUTF8_fromUTF8 {b : ByteArray} {s : String} (valid : String.fromUTF8? b = some s) :
    s.toUTF8 = b := by
  simp only [String.fromUTF8?] at valid
  split at valid
  · cases valid
    rfl
  · cases valid

theorem fromUTF8_toUTF8 (s : String) : String.fromUTF8? s.toUTF8 = some s := by
  simp only [String.fromUTF8?, String.toUTF8_eq_toByteArray, dif_pos s.isValidUTF8]
  rfl

namespace Read

variable {α : Type} {depth : Nat}

theorem takes_tag (depth : Nat) {n : Nat} (small : n < 4294967296) :
    Takes tag depth (varintBytes n) n := by
  have takes := (takes_varint depth (by omega : n < 18446744073709551616)).map (· % 4294967296)
  rwa [Nat.mod_eq_of_lt small] at takes

theorem confined_tag : Confined 1 tag :=
  confined_varint.map _

theorem takes_int32 (depth : Nat) (i : Int32) : Takes int32 depth (Bytes.int32 i) i := by
  have takes := (takes_varint depth i.toInt64.toUInt64.toNat_lt).map Int32.ofNat
  rwa [ofNat_toInt64] at takes

theorem confined_int32 : Confined 1 int32 :=
  confined_varint.map _

theorem length_int32_le (i : Int32) : (Bytes.int32 i).length ≤ 10 :=
  length_varintBytes_le (by decide)
    (Nat.lt_of_lt_of_le i.toInt64.toUInt64.toNat_lt (by decide))

theorem ensures_int32 (depth : Nat) : Ensures int32 depth fun bytes i =>
    (Bytes.int32 i).length ≤ 2 * bytes.length := by
  refine (ensures_varint depth).map Int32.ofNat ?_
  rintro bytes n ⟨long, fits, -⟩
  -- A negative number has ten groups and is read from five bytes at least; four bytes hold 28 bits.
  by_cases few : bytes.length ≤ 4
  · have small : n < 2147483648 :=
      calc n < 128 ^ bytes.length := fits
        _ ≤ 128 ^ 4 := Nat.pow_le_pow_right (by decide) few
        _ < 2147483648 := by decide
    have short : (varintBytes n).length ≤ bytes.length := length_varintBytes_le long fits
    rw [Bytes.int32, toInt64_ofNat small]
    omega
  · have := length_int32_le (Int32.ofNat n)
    omega

theorem takes_int64 (depth : Nat) (i : Int64) : Takes int64 depth (Bytes.int64 i) i := by
  have takes := (takes_varint depth i.toUInt64.toNat_lt).map Int64.ofNat
  rwa [ofNat_toUInt64] at takes

theorem confined_int64 : Confined 1 int64 :=
  confined_varint.map _

theorem takes_uint64 (depth : Nat) (n : UInt64) : Takes uint64 depth (Bytes.uint64 n) n := by
  have takes := (takes_varint depth n.toNat_lt).map UInt64.ofNat
  rwa [UInt64.ofNat_toNat] at takes

theorem confined_uint64 : Confined 1 uint64 :=
  confined_varint.map _

theorem takes_bool (depth : Nat) (b : Bool) : Takes bool depth (Bytes.bool b) b := by
  have word : b.toNat < 18446744073709551616 := by cases b <;> decide
  have takes := (takes_varint depth word).map (· != 0)
  cases b <;> exact takes

theorem confined_bool : Confined 1 bool :=
  confined_varint.map _

theorem takes_slice (depth : Nat) (bytes : List UInt8) :
    Takes (slice bytes.length) depth bytes ⟨bytes.toArray⟩ := by
  intro r here
  have room := here.room
  have taken : r.data.extract r.index (r.index + bytes.length) = ⟨bytes.toArray⟩ := by
    apply ByteArray.ext
    apply Array.ext'
    have front := List.prefix_iff_eq_take.1 here.front
    simp only [ByteArray.data_extract, Array.toList_extract, List.extract_eq_take_drop]
    rw [Nat.add_sub_cancel_left]
    exact front.symm
  simp only [slice, room, if_true, taken]
  rfl

theorem ensures_slice (depth n : Nat) : Ensures (slice n) depth fun bytes b =>
    bytes.length = n ∧ b = ⟨bytes.toArray⟩ := by
  intro r b r' level inside success
  have room : r.index + n ≤ r.data.size := by
    by_cases room : r.index + n ≤ r.data.size
    · exact room
    · simp only [slice, room, if_false] at success
      cases success
  have short : n ≤ r.remaining.length := by
    rw [length_remaining]
    omega
  have front : r.At depth (r.remaining.take n) := ⟨level, inside, List.take_prefix n _⟩
  have length : (r.remaining.take n).length = n := List.length_take_of_le short
  have taken := takes_slice depth (r.remaining.take n) r front
  rw [length, success] at taken
  cases taken
  exact ⟨_, front, by rw [length], length, rfl⟩

theorem confined_slice (n : Nat) : Confined n (slice n) := by
  intro depth
  refine (ensures_slice depth n).weaken ?_
  rintro bytes b ⟨rfl, rfl⟩
  exact ⟨Nat.le_refl _, takes_slice depth bytes⟩

theorem takes_fixed (depth : Nat) {k n : Nat} (fits : n < 256 ^ k) :
    Takes (fixed k) depth (littleEndianBytes k n) n := by
  have slice := takes_slice depth (littleEndianBytes k n)
  rw [length_littleEndianBytes] at slice
  have takes := slice.map fun b => littleEndian b.data.toList
  simp only [littleEndian_bytes fits] at takes
  exact takes

theorem takes_double (depth : Nat) (x : Double) : Takes double depth (Bytes.double x) x := by
  have takes := ((takes_fixed depth (k := 8) x.bits.toNat_lt).map UInt64.ofNat).map Double.mk
  rw [UInt64.ofNat_toNat] at takes
  exact takes

theorem confined_double : Confined 1 double :=
  ((((confined_slice 8).map _).map _).map _).weaken (by decide)

-- What has its length in front. The length is checked against the buffer before anything is read.

theorem endOf_ok {r : Reader} {n : Nat} (room : r.index + n ≤ r.data.size) :
    endOf (some n) r = .ok (r.index + n) r := by
  simp only [endOf, room, if_true]

theorem endOf_eq_ok {r r' : Reader} {n stop : Nat} (success : endOf (some n) r = .ok stop r') :
    stop = r.index + n ∧ r' = r ∧ r.index + n ≤ r.data.size := by
  by_cases room : r.index + n ≤ r.data.size
  · rw [endOf_ok room] at success
    cases success
    exact ⟨rfl, rfl, room⟩
  · simp only [endOf, room, if_false] at success
    cases success

theorem length_ok {r : Reader} {n : Nat} {bytes : List UInt8}
    (takes : Takes varint depth bytes n) (here : r.At depth bytes)
    (room : r.index + bytes.length + n % 4294967296 ≤ r.data.size) :
    length r = .ok (n % 4294967296) (r.advance bytes.length) :=
  bind_ok (takes r here) (bind_ok (endOf_ok room) rfl)

theorem room_of_length {r r' : Reader} {n : Nat} (success : length r = .ok n r') :
    r'.index + n ≤ r'.data.size := by
  obtain ⟨v, r₁, first, second⟩ := bind_eq_ok success
  obtain ⟨stop, r₂, check, last⟩ := bind_eq_ok second
  obtain ⟨-, rfl, room⟩ := endOf_eq_ok check
  cases last
  exact room

theorem inside_of_length {r r' : Reader} {n : Nat} (success : length r = .ok n r') :
    r.index ≤ r.data.size := by
  obtain ⟨v, r₁, number, -⟩ := bind_eq_ok success
  obtain ⟨b, r₂, first, -⟩ := bind_eq_ok number
  by_cases inside : r.index < r.data.size
  · exact Nat.le_of_lt inside
  · simp only [byte, inside, dif_neg, not_false_eq_true] at first
    cases first

-- After a length it does not matter what the rest would do without room for its bytes.
theorem length_bind_congr {next next' : Nat → Read α}
    (same : ∀ n (r : Reader), r.index + n ≤ r.data.size → next n r = next' n r) :
    (length >>= next) = length >>= next' := by
  funext r
  change EStateM.bind length next r = EStateM.bind length next' r
  simp only [EStateM.bind]
  cases first : length r with
  | ok n r' => exact same n r' (room_of_length first)
  | error e r' => rfl

theorem length_eq_ok {r r' : Reader} {n : Nat} (inside : r.index ≤ r.data.size)
    (success : length r = .ok n r') : ∃ bytes v, r.At r.depth bytes ∧ 1 ≤ bytes.length ∧
      Takes varint r.depth bytes v ∧ n = v % 4294967296 ∧ r' = r.advance bytes.length := by
  obtain ⟨v, r₁, first, second⟩ := bind_eq_ok success
  obtain ⟨stop, r₂, check, last⟩ := bind_eq_ok second
  obtain ⟨bytes, here, rfl, long, takes⟩ := confined_varint.taken inside first
  obtain ⟨-, rfl, _⟩ := endOf_eq_ok check
  cases last
  exact ⟨bytes, v, here, long, takes, rfl, rfl⟩

theorem Takes.length_bind {next : Nat → Read α} {n : Nat} {front bytes : List UInt8} {a : α}
    (number : Takes varint depth front n) (room : n % 4294967296 ≤ bytes.length)
    (rest : Takes (next (n % 4294967296)) depth bytes a) :
    Takes (length >>= next) depth (front ++ bytes) a := by
  intro r here
  have fits := here.room
  rw [List.length_append] at fits
  rw [bind_ok (length_ok number here.left (by omega)) (rest _ here.right)]
  simp

theorem takes_length_bind {next : Nat → Read α} {n : Nat} {bytes : List UInt8} {a : α}
    (small : n < 4294967296) (room : n ≤ bytes.length) (rest : Takes (next n) depth bytes a) :
    Takes (length >>= next) depth (varintBytes n ++ bytes) a := by
  have same := Nat.mod_eq_of_lt small
  refine (takes_varint depth (by omega)).length_bind ?_ ?_ <;> rwa [same]

theorem confined_length_bind {next : Nat → Read α} (rest : ∀ n, Confined n (next n)) :
    Confined 1 (length >>= next) := by
  intro depth r a r'' level inside success
  obtain ⟨n, r', first, second⟩ := bind_eq_ok success
  obtain ⟨bytes, v, here, long, takes, rfl, rfl⟩ := length_eq_ok inside first
  rw [level] at here takes
  -- The rest takes as many bytes as the length says, so the check passes wherever they all stand.
  obtain ⟨more, there, rfl, enough, takes'⟩ :=
    rest (v % 4294967296) depth (r.advance bytes.length) a r'' level here.room second
  exact ⟨bytes ++ more, here.append there, by simp, by simp; omega, takes.length_bind enough takes'⟩

theorem ensures_length (depth : Nat) : Ensures length depth fun bytes n =>
    1 ≤ bytes.length ∧ n < 4294967296 := by
  intro r n r' level inside success
  obtain ⟨bytes, v, here, long, -, rfl, rfl⟩ := length_eq_ok inside success
  rw [level] at here
  exact ⟨bytes, here, rfl, long, Nat.mod_lt _ (by decide)⟩

theorem takes_delimited {bytes : List UInt8} (small : bytes.length < 4294967296) :
    Takes Read.bytes depth (Bytes.delimited bytes) ⟨bytes.toArray⟩ :=
  takes_length_bind small (Nat.le_refl _) (takes_slice depth bytes)

theorem takes_bytes {b : ByteArray} (small : b.size < 4294967296) :
    Takes Read.bytes depth (Bytes.bytes b) b :=
  takes_delimited (by simpa using small)

theorem confined_bytes : Confined 1 Read.bytes :=
  confined_length_bind confined_slice

theorem ensures_bytes (depth : Nat) : Ensures Read.bytes depth fun bytes b =>
    b.size < 4294967296 ∧ b.size + 1 ≤ bytes.length := by
  refine (ensures_length depth).bind ?_
  rintro bytes n ⟨long, small⟩
  refine (ensures_slice depth n).weaken ?_
  rintro more b ⟨rfl, rfl⟩
  refine ⟨small, ?_⟩
  rw [List.length_append]
  change more.toArray.size + 1 ≤ _
  rw [List.size_toArray]
  omega

theorem takes_string {s : String} (small : s.utf8ByteSize < 4294967296) :
    Takes string depth (Bytes.string s) s := by
  have takes : Takes Read.bytes depth (Bytes.string s) s.toUTF8 := takes_bytes small
  refine takes.followed ?_
  rw [fromUTF8_toUTF8]
  exact Takes.pure depth s

theorem confined_string : Confined 1 string := by
  refine confined_bytes.followed fun b => ?_
  split
  · exact Confined.pure _
  · exact Confined.throw 0 _

theorem ensures_string (depth : Nat) : Ensures string depth fun bytes s =>
    s.utf8ByteSize < 4294967296 ∧ s.utf8ByteSize + 1 ≤ bytes.length := by
  refine (ensures_bytes depth).bind ?_
  rintro bytes b ⟨small, long⟩
  split
  next s valid =>
    refine Ensures.pure ?_
    rw [← toUTF8_fromUTF8 valid] at small long
    rw [List.append_nil]
    exact ⟨small, long⟩
  next => exact Ensures.throw _

theorem Takes.nested {action : Read α} {bytes : List UInt8} {a : α} (shallow : depth < recursionLimit)
    (takes : Takes action (depth + 1) bytes a) : Takes (nested action) depth bytes a := by
  intro r here
  have inner : Reader.At { r with depth := r.depth + 1 } (depth + 1) bytes :=
    ⟨by rw [here.level], here.inside, here.front⟩
  have above : ¬recursionLimit ≤ r.depth := by
    rw [here.level]
    exact Nat.not_le.2 shallow
  simp only [Read.nested, above, if_false, takes _ inner]
  rfl

theorem Ensures.nested {action : Read α} {post : List UInt8 → α → Prop}
    (ensures : Ensures action (depth + 1) post) :
    Ensures (nested action) depth fun bytes a => depth < recursionLimit ∧ post bytes a := by
  intro r a r' level inside success
  by_cases deep : recursionLimit ≤ r.depth
  · simp only [Read.nested, deep, if_true] at success
    cases success
  · simp only [Read.nested, deep, if_false] at success
    split at success
    next a' r₁ inner =>
      obtain ⟨bytes, here, rfl, holds⟩ :=
        ensures { r with depth := r.depth + 1 } a' r₁ (congrArg (· + 1) level) inside inner
      cases success
      exact ⟨bytes, ⟨level, inside, here.front⟩, rfl, by omega, holds⟩
    next => cases success

theorem Confined.nested {least : Nat} {action : Read α} (confined : Confined least action) :
    Confined least (nested action) := by
  intro depth
  refine (confined (depth + 1)).nested.weaken ?_
  rintro bytes a ⟨shallow, long, takes⟩
  exact ⟨long, takes.nested shallow⟩

end Read

end Protogen.Wire
