import Protogen.Proofs.Wire.Pieces

set_option autoImplicit false

namespace Protogen.Wire.Read

variable {α β σ : Type} {depth : Nat} {bytes more : List UInt8} {e : CodecError}

-- In front of the bytes, the action fails with the error.
def Fails (action : Read α) (depth : Nat) (bytes : List UInt8) (e : CodecError) : Prop :=
  ∀ r, r.At depth bytes → ∃ r', action r = .error e r'

namespace Fails

theorem throw (depth : Nat) (bytes : List UInt8) (e : CodecError) :
    Fails (MonadExcept.throw e : Read α) depth bytes e :=
  fun r _ => ⟨r, rfl⟩

theorem bind {action : Read α} (first : Fails action depth bytes e) (next : α → Read β) :
    Fails (action >>= next) depth bytes e := by
  intro r here
  obtain ⟨r', fault⟩ := first r here
  refine ⟨r', ?_⟩
  change EStateM.bind action next r = _
  simp only [EStateM.bind, fault]

theorem after {action : Read α} {next : α → Read β} {a : α} (first : Takes action depth bytes a)
    (second : Fails (next a) depth more e) : Fails (action >>= next) depth (bytes ++ more) e := by
  intro r here
  rw [bind_of_ok (first r here.left)]
  exact second _ here.right

theorem nested {action : Read α} (shallow : depth < recursionLimit) (fails : Fails action (depth + 1) bytes e) :
    Fails (nested action) depth bytes e := by
  intro r here
  have inner : Reader.At { r with depth := r.depth + 1 } (depth + 1) bytes :=
    ⟨by rw [here.level], here.inside, here.front⟩
  have above : ¬recursionLimit ≤ r.depth := by
    rw [here.level]
    exact Nat.not_le.2 shallow
  obtain ⟨r', fault⟩ := fails _ inner
  simp only [Read.nested, above, if_false, fault]
  exact ⟨_, rfl⟩

theorem deep {action : Read α} (limit : recursionLimit ≤ depth) (bytes : List UInt8) :
    Fails (Read.nested action) depth bytes (.recursionLimit recursionLimit) := by
  intro r here
  have above : recursionLimit ≤ r.depth := by rwa [here.level]
  refine ⟨r, ?_⟩
  simp only [Read.nested, above, if_true]

theorem length_bind {next : Nat → Read α} (small : bytes.length < 4294967296)
    (rest : Fails (next bytes.length) depth bytes e) :
    Fails (length >>= next) depth (Bytes.delimited bytes) e := by
  intro r here
  have same := Nat.mod_eq_of_lt small
  have room := here.room
  rw [Bytes.delimited, List.length_append] at room
  have prefixed := length_ok (takes_varint depth (by omega)) here.left (by omega)
  rw [same] at prefixed
  rw [bind_of_ok prefixed]
  exact rest _ here.right

theorem whileBefore {action : σ → Read σ} {n stop fuel : Nat} {s t : σ} {r : Reader}
    (pieces : Pieces action depth n s bytes t) (exact : bytes.length = n) (fails : Fails (action t) depth more e)
    (here : r.At depth (bytes ++ more)) (before : r.index + n < stop) (enough : stop - r.index ≤ fuel) :
    ∃ r', whileBefore stop action fuel s r = .error e r' := by
  obtain ⟨fuel', still, same⟩ := pieces.whileBefore_append exact here.left (Nat.le_of_lt before) enough
  obtain ⟨fuel', rfl⟩ : ∃ k, fuel' = k + 1 := ⟨fuel' - 1, by omega⟩
  have there := here.right
  rw [exact] at there
  rw [same, whileBefore_step before]
  exact fails.bind _ _ there

theorem within {action : σ → Read σ} {s t : σ} (pieces : Pieces action depth bytes.length s bytes t)
    (nonempty : 0 < more.length) (fails : Fails (action t) depth more e) :
    Fails (within (bytes ++ more).length s action) depth (bytes ++ more) e := by
  intro r here
  have room := here.room
  have before : r.index + bytes.length < r.index + (bytes ++ more).length := by
    rw [List.length_append]
    omega
  rw [Read.within, bind_of_ok (endOf_ok room)]
  exact whileBefore pieces rfl fails here before (by omega)

end Fails

end Protogen.Wire.Read
