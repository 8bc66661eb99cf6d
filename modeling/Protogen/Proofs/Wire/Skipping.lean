import Protogen.Proofs.Wire.Values

set_option autoImplicit false

namespace Protogen.Wire.Read

theorem ensures_skipWith_plain {tag : Nat} {action : Read Unit}
    (same : ∀ fuel, skipWith fuel tag = action) (confined : Confined 0 action) (fuel depth : Nat) :
    Ensures (skipWith fuel tag) depth fun bytes _ =>
      ∀ fuel', 2 * bytes.length ≤ fuel' → Takes (skipWith fuel' tag) depth bytes () := by
  rw [same]
  refine (confined depth).weaken ?_
  rintro bytes _ ⟨-, takes⟩ fuel' _
  rw [same]
  exact takes

-- Fuel is counted against the bytes that a success takes: a group pays one for its own level, and the
-- tag in front of each value in it, or the end tag, pays for the step to the next.
mutual

theorem ensures_skipWith (fuel tag depth : Nat) : Ensures (skipWith fuel tag) depth fun bytes _ =>
    ∀ fuel', 2 * bytes.length ≤ fuel' → Takes (skipWith fuel' tag) depth bytes () := by
  cases type : WireType.ofNumber? (tag % 8) with
  | none =>
    refine ensures_skipWith_plain (fun fuel => by rw [skipWith.eq_def, type]) ?_ fuel depth
    exact Confined.throw 0 _
  | some wireType =>
    cases wireType with
    | varint =>
      refine ensures_skipWith_plain (fun fuel => by rw [skipWith.eq_def, type]) ?_ fuel depth
      exact (confined_varint.map fun _ => ()).weaken (Nat.zero_le _)
    | fixed64 =>
      refine ensures_skipWith_plain (fun fuel => by rw [skipWith.eq_def, type]) ?_ fuel depth
      exact ((confined_slice 8).map fun _ => ()).weaken (Nat.zero_le _)
    | delimited =>
      refine ensures_skipWith_plain (fun fuel => by rw [skipWith.eq_def, type]) ?_ fuel depth
      exact (confined_length_bind fun n => (confined_slice n).map fun _ => ()).weaken (Nat.zero_le _)
    | fixed32 =>
      refine ensures_skipWith_plain (fun fuel => by rw [skipWith.eq_def, type]) ?_ fuel depth
      exact ((confined_slice 4).map fun _ => ()).weaken (Nat.zero_le _)
    | endGroup =>
      refine ensures_skipWith_plain (fun fuel => by rw [skipWith.eq_def, type]) ?_ fuel depth
      exact Confined.throw 0 _
    | startGroup =>
      cases fuel with
      | zero =>
        simp only [skipWith, type]
        exact Ensures.throw _
      | succ fuel =>
        simp only [skipWith, type]
        refine (ensures_skipGroup fuel (tag / 8) (depth + 1)).nested.weaken ?_
        rintro bytes _ ⟨shallow, long, takes⟩ fuel' enough
        obtain ⟨fuel', rfl⟩ : ∃ k, fuel' = k + 1 := ⟨fuel' - 1, by omega⟩
        simp only [skipWith, type]
        exact (takes fuel' (by omega)).nested shallow

theorem ensures_skipGroup (fuel field depth : Nat) : Ensures (skipGroup fuel field) depth fun bytes _ =>
    1 ≤ bytes.length ∧
      ∀ fuel', 2 * bytes.length ≤ fuel' + 1 → Takes (skipGroup fuel' field) depth bytes () := by
  rw [skipGroup]
  refine (confined_tag depth).bind ?_
  rintro first tag ⟨long, takesTag⟩
  by_cases ends : tag % 8 = WireType.endGroup.number
  · by_cases own : tag / 8 = field
    · simp only [ends, own, if_true]
      refine Ensures.pure ⟨by simpa using long, fun fuel' _ => ?_⟩
      rw [skipGroup]
      refine takesTag.bind ?_
      simp only [ends, own, if_true]
      exact Takes.pure depth ()
    · simp only [ends, own, if_true, if_false]
      exact Ensures.throw _
  · simp only [ends, if_false]
    cases fuel with
    | zero => exact Ensures.throw _
    | succ fuel =>
      refine (ensures_skipWith fuel tag depth).bind ?_
      intro value _ takesValue
      refine (ensures_skipGroup fuel field depth).weaken ?_
      rintro rest _ ⟨more, takesRest⟩
      simp only [List.length_append]
      refine ⟨by omega, fun fuel' enough => ?_⟩
      obtain ⟨fuel', rfl⟩ : ∃ k, fuel' = k + 1 := ⟨fuel' - 1, by omega⟩
      rw [skipGroup]
      refine takesTag.bind ?_
      simp only [ends, if_false]
      exact (takesValue fuel' (by omega)).bind (takesRest fuel' (by omega))

end

theorem confined_skip (tag : Nat) : Confined 0 (skip tag) := by
  intro depth r _ r' level inside success
  obtain ⟨bytes, here, same, takes⟩ := ensures_skipWith _ tag depth r () r' level inside success
  refine ⟨bytes, here, same, Nat.zero_le _, ?_⟩
  intro s place
  have room := place.room
  exact takes (2 * (s.data.size - s.index) + 2) (by omega) s place

end Protogen.Wire.Read
