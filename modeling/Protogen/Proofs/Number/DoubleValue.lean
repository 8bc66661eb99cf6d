import Mathlib
import Protogen.Number.Float

set_option autoImplicit false

namespace Protogen.Number

def Dyadic.value (d : Dyadic) : ℚ :=
  d.mantissa * 2 ^ d.exponent

theorem Dyadic.value_eq_fraction (d : Dyadic) :
    0 < d.fraction.2 ∧ d.value = (d.fraction.1 : ℚ) / (d.fraction.2 : ℚ) := by
  by_cases whole : 0 ≤ d.exponent
  next =>
    obtain ⟨k, exponent⟩ := Int.eq_ofNat_of_zero_le whole
    simp [fraction, value, exponent]
  next =>
    obtain ⟨k, exponent⟩ := Int.eq_ofNat_of_zero_le (by omega : 0 ≤ -d.exponent)
    have negative : d.exponent = -(k : ℤ) := by omega
    have parts : d.fraction = (d.mantissa, 2 ^ k) := by
      rw [fraction, if_neg whole, exponent]
      rfl
    rw [parts, value, negative]
    simp [div_eq_mul_inv]

namespace Double

def exponentField (x : Double) : Nat :=
  x.bits.toNat / 2 ^ 52 % 2048

def fractionField (x : Double) : Nat :=
  x.bits.toNat % 2 ^ 52

-- The number of a finite pattern. The fraction has a one in front unless the exponent field is zero.
def value (x : Double) : ℚ :=
  (-1) ^ (x.bits.toNat / 2 ^ 63) *
    if x.exponentField = 0 then (x.fractionField : ℚ) * 2 ^ (-1074 : ℤ)
    else (2 ^ 52 + x.fractionField : ℚ) * 2 ^ ((x.exponentField : ℤ) - 1075)

theorem isFinite_iff (x : Double) : x.isFinite = true ↔ x.exponentField ≠ 2047 := by
  rw [isFinite, decide_eq_true_iff, unsigned, signBit, exponentField]
  simp only [FloatFormat.double]
  omega

theorem magnitude_value (x : Double) : x.magnitude.value =
    if x.exponentField = 0 then (x.fractionField : ℚ) * 2 ^ (-1074 : ℤ)
    else (2 ^ 52 + x.fractionField : ℚ) * 2 ^ ((x.exponentField : ℤ) - 1075) := by
  have field : x.unsigned / 4503599627370496 = x.exponentField := by
    rw [unsigned, signBit, exponentField]
    omega
  have fraction : x.unsigned % 4503599627370496 = x.fractionField := by
    rw [unsigned, signBit, fractionField]
    omega
  have unit : Nat.pow 2 (FloatFormat.double.precision - 1) = 4503599627370496 := rfl
  rw [magnitude, FloatFormat.magnitude, unit, field, fraction]
  split
  next zero =>
    have small : x.unsigned = x.fractionField := by omega
    rw [Dyadic.value, small]
    rfl
  next =>
    have exponent : FloatFormat.double.minExp + ((x.exponentField : ℤ) - 1) = (x.exponentField : ℤ) - 1075 := by
      change (-1074 : ℤ) + _ = _
      omega
    rw [Dyadic.value, exponent]
    norm_num

theorem value_eq (x : Double) : x.value = if x.isNegative then -x.magnitude.value else x.magnitude.value := by
  rw [value, ← magnitude_value]
  cases sign : x.isNegative with
  | true =>
    have set : x.bits.toNat / 2 ^ 63 = 1 := by
      have word := x.bits.toNat_lt
      rw [isNegative, decide_eq_true_iff, signBit] at sign
      omega
    rw [set, pow_one, neg_one_mul, if_pos rfl]
  | false =>
    have clear : x.bits.toNat / 2 ^ 63 = 0 := by
      rw [isNegative, decide_eq_false_iff_not, signBit] at sign
      omega
    rw [clear, pow_zero, one_mul, if_neg Bool.false_ne_true]

theorem fraction_eq_int_iff {num den : Nat} (positive : 0 < den) {n : Int} :
    (num : ℚ) / den = n ↔ num % den = 0 ∧ (num / den : Nat) = n := by
  have nonzero : (den : ℚ) ≠ 0 := Nat.cast_ne_zero.2 positive.ne'
  rw [div_eq_iff nonzero]
  constructor
  next =>
    intro product
    have whole : (num : ℤ) = n * den := by exact_mod_cast product
    have divides : den ∣ num := Int.natCast_dvd_natCast.1 (Dvd.intro_left n whole.symm)
    refine ⟨Nat.mod_eq_zero_of_dvd divides, ?_⟩
    rw [Int.natCast_ediv, whole, Int.mul_ediv_cancel _ (Int.natCast_ne_zero.2 positive.ne')]
  next =>
    rintro ⟨divides, rfl⟩
    exact_mod_cast (Nat.div_mul_cancel (Nat.dvd_of_mod_eq_zero divides)).symm

theorem toInt?_eq_some_iff {x : Double} {n : Int} : x.toInt? = some n ↔ x.exponentField ≠ 2047 ∧ x.value = n := by
  obtain ⟨positive, quotient⟩ := x.magnitude.value_eq_fraction
  rw [← isFinite_iff, value_eq, quotient, toInt?]
  cases x.isFinite with
  | false => simp
  | true =>
    cases x.isNegative with
    | true =>
      rw [if_pos rfl, if_pos rfl, neg_eq_iff_eq_neg, ← Int.cast_neg, fraction_eq_int_iff positive]
      dsimp only
      split
      next divides =>
        simp only [divides, if_true, Option.some.injEq, true_and]
        omega
      next apart => simp [apart]
    | false =>
      rw [if_pos rfl, if_neg Bool.false_ne_true, fraction_eq_int_iff positive]
      dsimp only
      split
      next divides => simp [divides]
      next apart => simp [apart]

end Double

end Protogen.Number
