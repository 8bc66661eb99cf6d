import Protogen.Proofs.Wire.Taking
import Protogen.Wire.Writer

set_option autoImplicit false

namespace Protogen.Wire

open Reader

theorem varintBytes_small {n : Nat} (small : n < 128) : varintBytes n = [UInt8.ofNat n] := by
  rw [varintBytes, dif_pos small]

theorem varintBytes_large {n : Nat} (large : 128 ≤ n) :
    varintBytes n = UInt8.ofNat (n % 128 + 128) :: varintBytes (n / 128) := by
  rw [varintBytes, dif_neg (by omega)]

theorem varintBytes_ne_nil (n : Nat) : varintBytes n ≠ [] := by
  by_cases small : n < 128
  · simp [varintBytes_small small]
  · simp [varintBytes_large (Nat.le_of_not_lt small)]

theorem length_varintBytes_pos (n : Nat) : 0 < (varintBytes n).length :=
  List.length_pos_iff.2 (varintBytes_ne_nil n)

theorem length_varintBytes_le {n groups : Nat} (positive : 0 < groups) (fits : n < 128 ^ groups) :
    (varintBytes n).length ≤ groups := by
  induction groups generalizing n with
  | zero => omega
  | succ groups ih =>
    by_cases small : n < 128
    · rw [varintBytes_small small, List.length_singleton]
      omega
    · rw [varintBytes_large (Nat.le_of_not_lt small), List.length_cons]
      cases groups with
      | zero => omega
      | succ groups =>
        have shorter : n / 128 < 128 ^ (groups + 1) := by
          rw [Nat.div_lt_iff_lt_mul (by decide)]
          rwa [← Nat.pow_succ]
        have := ih (by omega) shorter
        omega

namespace Read

variable {depth : Nat}

theorem takes_byte (depth : Nat) (b : UInt8) : Takes byte depth [b] b := by
  intro r here
  have room : r.index < r.data.size := here.room
  obtain ⟨rest, split⟩ := here.front
  have first : r.data[r.index] = b := by
    have bound : r.index < r.data.data.toList.length := by simpa using room
    rw [remaining, List.drop_eq_getElem_cons bound] at split
    exact (List.cons.inj split).1.symm
  simp only [byte, room, dif_pos, first]
  rfl

theorem ensures_byte (depth : Nat) : Ensures byte depth fun bytes b => bytes = [b] := by
  intro r b r' level inside success
  unfold byte at success
  split at success
  case isFalse => cases success
  case isTrue room =>
    cases success
    refine ⟨[r.data[r.index]], ⟨level, inside, ?_⟩, rfl, rfl⟩
    have bound : r.index < r.data.data.toList.length := by simpa using room
    rw [remaining, List.drop_eq_getElem_cons bound]
    exact ⟨_, rfl⟩

theorem confined_byte : Confined 1 byte := by
  intro depth
  refine (ensures_byte depth).weaken ?_
  rintro bytes b rfl
  exact ⟨Nat.le_refl 1, takes_byte depth b⟩

theorem Takes.byte {α : Type} {next : UInt8 → Read α} {b : UInt8} {bytes : List UInt8} {a : α}
    (rest : Takes (next b) depth bytes a) : Takes (byte >>= next) depth (b :: bytes) a :=
  (takes_byte depth b).bind rest

theorem confined_varintFrom (position value fuel : Nat) :
    Confined 0 (varintFrom position value fuel) := by
  induction fuel generalizing position value with
  | zero => exact Confined.throw 0 _
  | succ fuel ih =>
    refine (confined_byte.followed fun b => ?_).weaken (Nat.zero_le 1)
    split
    · exact Confined.throw 0 _
    · dsimp only
      split
      · exact Confined.pure _
      · exact ih _ _

theorem confined_varint : Confined 1 varint := by
  refine confined_byte.followed fun b => ?_
  split
  · exact Confined.throw 0 _
  · dsimp only
    split
    · exact Confined.pure _
    · exact confined_varintFrom _ _ _

theorem pow_seven (position : Nat) : Nat.pow 2 (7 * position) = 128 ^ position := by
  rw [Nat.pow_eq, Nat.pow_mul]

theorem value_bounds {position value : Nat} {b : UInt8} (early : position ≤ 9)
    (bound : value < 128 ^ position) (fits : ¬(position = 9 ∧ 1 < b)) :
    value + b.toNat % 128 * 128 ^ position < 128 ^ (position + 1) ∧
      value + b.toNat % 128 * 128 ^ position < 18446744073709551616 := by
  have group : b.toNat % 128 * 128 ^ position ≤ 127 * 128 ^ position :=
    Nat.mul_le_mul_right _ (by omega)
  have larger : value + b.toNat % 128 * 128 ^ position < 128 ^ (position + 1) := by
    rw [Nat.pow_succ]
    omega
  refine ⟨larger, ?_⟩
  by_cases last : position = 9
  · subst last
    have bit : b.toNat ≤ 1 := by
      have := fun less : 1 < b => fits ⟨rfl, less⟩
      simpa [UInt8.lt_iff_toNat_lt] using this
    omega
  · calc _ < 128 ^ (position + 1) := larger
      _ ≤ 128 ^ 9 := Nat.pow_le_pow_right (by decide) (by omega)
      _ ≤ 18446744073709551616 := by decide

theorem ensures_varintFrom (depth position value fuel : Nat) (groups : position + fuel = 10)
    (bound : value < 128 ^ position) :
    Ensures (varintFrom position value fuel) depth fun bytes n =>
      n < 128 ^ (position + bytes.length) ∧ n < 18446744073709551616 := by
  -- The value so far holds `position` groups of seven bits, and each byte adds one.
  induction fuel generalizing position value with
  | zero => exact Ensures.throw _
  | succ fuel ih =>
    refine (ensures_byte depth).bind ?_
    rintro bytes b rfl
    split
    next => exact Ensures.throw _
    next fits =>
      have next := value_bounds (by omega) bound fits
      simp only [pow_seven]
      split
      next => exact Ensures.pure (by simpa using next)
      next =>
        refine (ih (position + 1) _ (by omega) next.1).weaken ?_
        intro bytes n
        simp [Nat.add_assoc, Nat.add_comm 1]

theorem ensures_varint (depth : Nat) : Ensures varint depth fun bytes n =>
    1 ≤ bytes.length ∧ n < 128 ^ bytes.length ∧ n < 18446744073709551616 := by
  have bound := ensures_varintFrom depth 0 0 10 rfl (by decide)
  refine ((confined_varint depth).and bound).weaken ?_
  rintro bytes n ⟨⟨long, -⟩, fits, word⟩
  exact ⟨long, by simpa using fits, word⟩

theorem takes_last {n position : Nat} (small : n < 128)
    (fits : n * 128 ^ position < 18446744073709551616) (depth value fuel : Nat) :
    Takes (varintFrom position value (fuel + 1)) depth [UInt8.ofNat n] (value + n * 128 ^ position) := by
  have byte : (UInt8.ofNat n).toNat = n := UInt8.toNat_ofNat_of_lt' (Nat.lt_trans small (by decide))
  have last : UInt8.ofNat n < 128 := by simpa [UInt8.lt_iff_toNat_lt, byte] using small
  have short : ¬(position = 9 ∧ 1 < UInt8.ofNat n) := by
    rintro ⟨rfl, less⟩
    have : 1 < n := by simpa [UInt8.lt_iff_toNat_lt, byte] using less
    omega
  refine Takes.byte ?_
  rw [if_neg short]
  simp only [last, if_true, byte, pow_seven, Nat.mod_eq_of_lt small]
  exact Takes.pure depth _

theorem takes_more {group position value fuel depth m : Nat} {bytes : List UInt8} (small : group < 128)
    (early : position ≠ 9)
    (rest : Takes (varintFrom (position + 1) (value + group * 128 ^ position) fuel) depth bytes m) :
    Takes (varintFrom position value (fuel + 1)) depth (UInt8.ofNat (group + 128) :: bytes) m := by
  have byte : (UInt8.ofNat (group + 128)).toNat = group + 128 :=
    UInt8.toNat_ofNat_of_lt' (Nat.add_lt_add_right small 128)
  have goes : ¬UInt8.ofNat (group + 128) < 128 := by
    rw [UInt8.lt_iff_toNat_lt, byte]
    exact Nat.not_lt.2 (Nat.le_add_left 128 _)
  refine Takes.byte ?_
  rw [if_neg fun h => early h.1]
  simp only [goes, if_false, byte, pow_seven, Nat.add_mod_right, Nat.mod_eq_of_lt small]
  exact rest

theorem takes_varintFrom (depth position value fuel n : Nat) (groups : position + fuel = 10)
    (fits : n * 128 ^ position < 18446744073709551616) (more : 0 < fuel) :
    Takes (varintFrom position value fuel) depth (varintBytes n) (value + n * 128 ^ position) := by
  induction fuel generalizing position value n with
  | zero => omega
  | succ fuel ih =>
    by_cases small : n < 128
    · rw [varintBytes_small small]
      exact takes_last small fits depth value fuel
    · have early : position ≠ 9 := by
        rintro rfl
        omega
      have rest : n / 128 * 128 ^ (position + 1) ≤ n * 128 ^ position := by
        rw [Nat.pow_succ, Nat.mul_comm (128 ^ position), ← Nat.mul_assoc]
        exact Nat.mul_le_mul_right _ (Nat.div_mul_le_self n 128)
      have total : value + n % 128 * 128 ^ position + n / 128 * 128 ^ (position + 1) =
          value + n * 128 ^ position := by
        have split := Nat.mod_add_div n 128
        rw [Nat.pow_succ, Nat.mul_comm (128 ^ position), ← Nat.mul_assoc, Nat.add_assoc, ← Nat.add_mul,
          Nat.mul_comm (n / 128), split]
      rw [varintBytes_large (Nat.le_of_not_lt small), ← total]
      exact takes_more (Nat.mod_lt n (by decide)) early
        (ih (position + 1) _ (n / 128) (by omega) (by omega) (by omega))

theorem takes_varint (depth : Nat) {n : Nat} (word : n < 18446744073709551616) :
    Takes varint depth (varintBytes n) n := by
  have takes := takes_varintFrom depth 0 0 10 n rfl (by simpa using word) (by decide)
  rwa [Nat.pow_zero, Nat.mul_one, Nat.zero_add] at takes

end Read

end Protogen.Wire
