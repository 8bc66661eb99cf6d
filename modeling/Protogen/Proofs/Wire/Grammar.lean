import Protogen.Proofs.Wire.Skipping
import Protogen.Wire.Record

set_option autoImplicit false

namespace Protogen.Wire

/-- The bytes of a number from the one at a position on, and what they add up to. A byte below 128 is the
last, and there are ten at most, the tenth at most 1. -/
inductive Varint : Nat → List UInt8 → Nat → Prop
  | last {position : Nat} {b : UInt8} (ends : b < 128) (early : position ≤ 9)
      (fits : position = 9 → b ≤ 1) : Varint position [b] b.toNat
  | more {position n : Nat} {b : UInt8} {bytes : List UInt8} (goes : ¬b < 128) (early : position < 9)
      (rest : Varint (position + 1) bytes n) : Varint position (b :: bytes) (b.toNat % 128 + 128 * n)

-- Tags and lengths are the lowest 32 bits of their numbers.
mutual

/-- The value of a tag, with groups in one another so many levels deep at most. -/
inductive Value : Nat → Nat → List UInt8 → Prop
  | varint {levels tag n : Nat} {bytes : List UInt8} (type : tag % 8 = WireType.varint.number)
      (number : Varint 0 bytes n) : Value levels tag bytes
  | fixed64 {levels tag : Nat} {bytes : List UInt8} (type : tag % 8 = WireType.fixed64.number)
      (size : bytes.length = 8) : Value levels tag bytes
  | fixed32 {levels tag : Nat} {bytes : List UInt8} (type : tag % 8 = WireType.fixed32.number)
      (size : bytes.length = 4) : Value levels tag bytes
  | delimited {levels tag n : Nat} {front bytes : List UInt8}
      (type : tag % 8 = WireType.delimited.number) (number : Varint 0 front n)
      (size : bytes.length = n % 4294967296) : Value levels tag (front ++ bytes)
  | group {levels tag : Nat} {bytes : List UInt8} (type : tag % 8 = WireType.startGroup.number)
      (content : Content levels (tag / 8) bytes) : Value (levels + 1) tag bytes

inductive Content : Nat → Nat → List UInt8 → Prop
  | stop {levels field n : Nat} {front : List UInt8} (number : Varint 0 front n)
      (type : n % 4294967296 % 8 = WireType.endGroup.number) (own : n % 4294967296 / 8 = field) :
      Content levels field front
  | record {levels field n : Nat} {front bytes more : List UInt8} (number : Varint 0 front n)
      (type : n % 4294967296 % 8 ≠ WireType.endGroup.number)
      (value : Value levels (n % 4294967296) bytes) (rest : Content levels field more) :
      Content levels field (front ++ (bytes ++ more))

end

/-- A tag of a field with its value. -/
inductive CompleteRecord : Nat → Nat → List UInt8 → Prop
  | mk {levels n : Nat} {front bytes : List UInt8} (number : Varint 0 front n)
      (value : Value levels (n % 4294967296) bytes) :
      CompleteRecord levels (n % 4294967296 / 8) (front ++ bytes)

namespace Read

variable {depth : Nat}

theorem takes_groups {position n : Nat} {bytes : List UInt8} (number : Varint position bytes n)
    {fuel : Nat} (groups : position + fuel = 10) (value : Nat) :
    Takes (varintFrom position value fuel) depth bytes (value + n * 128 ^ position) := by
  induction number generalizing fuel value with
  | @last position b ends early fits =>
    obtain ⟨fuel, rfl⟩ : ∃ k, fuel = k + 1 := ⟨fuel - 1, by omega⟩
    have small : b.toNat < 128 := by simpa [UInt8.lt_iff_toNat_lt] using ends
    have word : b.toNat * 128 ^ position < 18446744073709551616 := by
      by_cases tenth : position = 9
      next =>
        subst tenth
        have bit : b.toNat ≤ 1 := by simpa [UInt8.le_iff_toNat_le] using fits rfl
        omega
      next =>
        calc b.toNat * 128 ^ position ≤ 127 * 128 ^ 8 :=
              Nat.mul_le_mul (by omega) (Nat.pow_le_pow_right (by decide) (by omega))
          _ < 18446744073709551616 := by decide
    have takes := takes_last small word depth value fuel
    rwa [UInt8.ofNat_toNat] at takes
  | @more position n b bytes goes early rest ih =>
    obtain ⟨fuel, rfl⟩ : ∃ k, fuel = k + 1 := ⟨fuel - 1, by omega⟩
    have large : 128 ≤ b.toNat := by
      rw [UInt8.lt_iff_toNat_lt] at goes
      exact Nat.not_lt.1 goes
    have byte : UInt8.ofNat (b.toNat % 128 + 128) = b := by
      have bound := b.toNat_lt
      have same : b.toNat % 128 + 128 = b.toNat := by omega
      rw [same, UInt8.ofNat_toNat]
    have total : value + (b.toNat % 128 + 128 * n) * 128 ^ position =
        value + b.toNat % 128 * 128 ^ position + n * 128 ^ (position + 1) := by
      ring
    have others := ih (by omega : position + 1 + fuel = 10) (value + b.toNat % 128 * 128 ^ position)
    have takes := takes_more (Nat.mod_lt b.toNat (by decide)) (by omega) others
    rw [byte] at takes
    rwa [total]

theorem takes_number {n : Nat} {bytes : List UInt8} (number : Varint 0 bytes n) :
    Takes varint depth bytes n := by
  have takes : Takes varint depth bytes (0 + n * 128 ^ 0) := takes_groups number rfl 0
  rwa [Nat.pow_zero, Nat.mul_one, Nat.zero_add] at takes

theorem takes_tag_of {n : Nat} {bytes : List UInt8} (number : Varint 0 bytes n) :
    Takes tag depth bytes (n % 4294967296) :=
  (takes_number number).map _

theorem length_number_pos {position n : Nat} {bytes : List UInt8} (number : Varint position bytes n) :
    0 < bytes.length := by
  cases number <;> simp

theorem length_content_pos {levels field : Nat} {bytes : List UInt8} (content : Content levels field bytes) :
    0 < bytes.length := by
  cases content with
  | stop number => exact length_number_pos number
  | record number =>
    have positive := length_number_pos number
    rw [List.length_append]
    omega

theorem takes_bytes_of {bytes : List UInt8} {n : Nat} (size : bytes.length = n) :
    Takes (do let _ ← slice n) depth bytes () := by
  subst size
  exact (takes_slice depth bytes).map _

-- A byte of a value is worth two units of fuel, as it is where stepping over the value has succeeded.
mutual

theorem takes_value {levels tag depth fuel : Nat} {bytes : List UInt8} (value : Value levels tag bytes)
    (shallow : depth + levels ≤ recursionLimit) (enough : 2 * bytes.length ≤ fuel) :
    Takes (skipWith fuel tag) depth bytes () := by
  cases value with
  | varint type number =>
    rw [skipWith.eq_def, type]
    exact (takes_number number).map _
  | fixed64 type size =>
    rw [skipWith.eq_def, type]
    exact takes_bytes_of size
  | fixed32 type size =>
    rw [skipWith.eq_def, type]
    exact takes_bytes_of size
  | delimited type number size =>
    rw [skipWith.eq_def, type]
    exact (takes_number number).length_bind size.ge (takes_bytes_of size)
  | @group levels _ _ type content =>
    have positive := length_content_pos content
    cases fuel with
    | zero => omega
    | succ fuel =>
      rw [skipWith.eq_def, type]
      have inner : Takes (skipGroup fuel (tag / 8)) (depth + 1) bytes () :=
        takes_content content (by omega) (by omega)
      exact inner.nested (by omega)

theorem takes_content {levels field depth fuel : Nat} {bytes : List UInt8}
    (content : Content levels field bytes) (shallow : depth + levels ≤ recursionLimit)
    (enough : 2 * bytes.length ≤ fuel + 1) : Takes (skipGroup fuel field) depth bytes () := by
  rw [skipGroup]
  cases content with
  | stop number type own =>
    refine (takes_tag_of number).followed ?_
    simp only [type, own, if_true]
    exact Takes.pure depth ()
  | record number type value rest =>
    have positive := length_number_pos number
    simp only [List.length_append] at enough
    refine (takes_tag_of number).bind ?_
    simp only [type, if_false]
    cases fuel with
    | zero => omega
    | succ fuel =>
      exact (takes_value value shallow (by omega)).bind (takes_content rest shallow (by omega))

end

theorem takes_skip {levels tag : Nat} {bytes : List UInt8} (value : Value levels tag bytes)
    (shallow : depth + levels ≤ recursionLimit) : Takes (skip tag) depth bytes () := by
  intro r here
  have room := here.room
  exact takes_value value shallow (by omega) r here

end Read

-- The field that a record is of, as its tag says.

-- The field of the tag that bytes begin with. A tag is the lowest 32 bits of its number.
def fieldOf? (bytes : List UInt8) : Option Nat :=
  (Record.takeVarint bytes).map fun taken => taken.1 % 4294967296 / 8

theorem Record.takeVarintFrom_append {position n : Nat} {front : List UInt8} (number : Varint position front n)
    (value : Nat) (more : List UInt8) :
    takeVarintFrom position value (front ++ more) = some (value + n * 128 ^ position, more) := by
  induction number generalizing value with
  | @last position b ends early fits =>
    have tenth : ¬(position = 9 ∧ 1 < b) := fun tenth => UInt8.not_lt.2 (fits tenth.1) tenth.2
    have small : b.toNat % 128 = b.toNat := Nat.mod_eq_of_lt (by simpa [UInt8.lt_iff_toNat_lt] using ends)
    rw [List.singleton_append, takeVarintFrom, if_neg tenth, small, Read.pow_seven]
    exact if_pos ends
  | @more position n b bytes goes early rest ih =>
    have tenth : ¬(position = 9 ∧ 1 < b) := fun tenth => Nat.ne_of_lt early tenth.1
    have total : value + b.toNat % 128 * 128 ^ position + n * 128 ^ (position + 1) =
        value + (b.toNat % 128 + 128 * n) * 128 ^ position := by ring
    rw [List.cons_append, takeVarintFrom, if_neg tenth, Read.pow_seven, ← total, ← ih]
    exact if_neg goes

theorem fieldOf?_append {n : Nat} {front : List UInt8} (number : Varint 0 front n) (bytes : List UInt8) :
    fieldOf? (front ++ bytes) = some (n % 4294967296 / 8) := by
  rw [fieldOf?, Record.takeVarint, Record.takeVarintFrom_append number, Nat.pow_zero, Nat.mul_one, Nat.zero_add]
  rfl

end Protogen.Wire
