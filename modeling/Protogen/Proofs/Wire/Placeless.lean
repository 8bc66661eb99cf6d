import Protogen.Proofs.Wire.Pieces
import Protogen.Proofs.Wire.Skipping

set_option autoImplicit false

namespace Protogen.Wire

namespace Reader

/-- Two readers with the same bytes ahead, the second no deeper than the first. -/
structure Abreast (r s : Reader) : Prop where
  level : s.depth ≤ r.depth
  inside : r.index ≤ r.data.size
  inside' : s.index ≤ s.data.size
  ahead : r.remaining = s.remaining

namespace Abreast

variable {r s : Reader} {depth n : Nat} {bytes : List UInt8}

theorem left (abreast : r.Abreast s) : r.data.size - r.index = s.data.size - s.index := by
  have lengths := congrArg List.length abreast.ahead
  rwa [length_remaining, length_remaining] at lengths

theorem advance (abreast : r.Abreast s) (room : n ≤ r.data.size - r.index) :
    (r.advance n).Abreast (s.advance n) := by
  have left := abreast.left
  have inside := abreast.inside
  have inside' := abreast.inside'
  refine ⟨abreast.level, ?_, ?_, ?_⟩
  · rw [advance_index, advance_data]
    omega
  · rw [advance_index, advance_data]
    omega
  · rw [remaining_advance, remaining_advance, abreast.ahead]

theorem deeper (abreast : r.Abreast s) :
    Abreast { r with depth := r.depth + 1 } { s with depth := s.depth + 1 } :=
  ⟨Nat.succ_le_succ abreast.level, abreast.inside, abreast.inside', abreast.ahead⟩

theorem of_at {r : Reader} (here : r.At depth bytes) (all : r.data.size - r.index = bytes.length) :
    r.Abreast (holding depth bytes) := by
  refine ⟨here.level.ge, here.inside, Nat.zero_le _, ?_⟩
  rw [remaining_holding]
  refine (here.front.eq_of_length ?_).symm
  rw [length_remaining, all]

end Abreast

end Reader

namespace Read

open Reader

variable {α β σ : Type}

/-- The same value after as many bytes, or the same error, unless the first is too deep. -/
inductive Alike (r s : Reader) :
    EStateM.Result CodecError Reader α → EStateM.Result CodecError Reader α → Prop
  | ok (a : α) {n : Nat} (room : n ≤ r.data.size - r.index) :
      Alike r s (.ok a (r.advance n)) (.ok a (s.advance n))
  | error (e : CodecError) (r' s' : Reader) : Alike r s (.error e r') (.error e s')
  | limit (deeper : s.depth < r.depth) (r' : Reader) (y : EStateM.Result CodecError Reader α) :
      Alike r s (.error (.recursionLimit recursionLimit) r') y

theorem Alike.bind {r s : Reader} {action action' : Read α} {next next' : α → Read β}
    (first : Alike r s (action r) (action' s))
    (second : ∀ a n, n ≤ r.data.size - r.index →
      Alike (r.advance n) (s.advance n) (next a (r.advance n)) (next' a (s.advance n))) :
    Alike r s ((action >>= next) r) ((action' >>= next') s) := by
  change Alike r s (EStateM.bind action next r) (EStateM.bind action' next' s)
  simp only [EStateM.bind]
  generalize action r = x, action' s = y at first
  cases first with
  | error e r' s' => exact .error e r' s'
  | limit deeper r' => exact .limit deeper r' _
  | @ok a n room =>
    have later := second a n room
    change Alike r s (next a (r.advance n)) (next' a (s.advance n))
    generalize next a (r.advance n) = x, next' a (s.advance n) = y at later
    cases later with
    | error e r' s' => exact .error e r' s'
    | limit deeper r' => exact .limit (r := r) (s := s) deeper r' y
    | @ok b m more =>
      rw [advance_data, advance_index] at more
      rw [advance_advance, advance_advance]
      exact .ok b (by omega)

-- A result without the place that it leaves the reader in.
def outcome : EStateM.Result CodecError Reader α → Except CodecError α
  | .ok a _ => .ok a
  | .error e _ => .error e

theorem Alike.outcome_eq {r s : Reader} {x y : EStateM.Result CodecError Reader α}
    (level : r.depth = s.depth) (alike : Alike r s x y) : outcome x = outcome y := by
  cases alike with
  | ok | error => rfl
  | limit deeper => exact absurd level deeper.ne'

/-- From places with the same bytes ahead the action does the same. -/
def Placeless (action : Read α) : Prop :=
  ∀ r s, r.Abreast s → Alike r s (action r) (action s)

namespace Placeless

theorem pure (a : α) : Placeless (Pure.pure a : Read α) :=
  fun _ _ _ => .ok a (Nat.zero_le _)

theorem throw (e : CodecError) : Placeless (MonadExcept.throw e : Read α) :=
  fun r s _ => .error e r s

theorem bind {action : Read α} {next : α → Read β} (first : Placeless action)
    (second : ∀ a, Placeless (next a)) : Placeless (action >>= next) :=
  fun r s abreast => (first r s abreast).bind fun a _ room => second a _ _ (abreast.advance room)

theorem map {action : Read α} (f : α → β) (placeless : Placeless action) :
    Placeless (do return f (← action)) :=
  placeless.bind fun a => pure (f a)

-- What takes the same bytes at all depths can only differ in how it fails.
theorem of_ensures {action : Read α}
    (flat : ∀ depth, Ensures action depth fun bytes a => ∀ depth', Takes action depth' bytes a)
    (e : CodecError) (fault : ∀ r e' r', action r = .error e' r' → e' = e) : Placeless action := by
  intro r s abreast
  cases first : action r with
  | ok a r' =>
    obtain ⟨bytes, here, rfl, takes⟩ := flat r.depth r a r' rfl abreast.inside first
    have there : s.At s.depth bytes := ⟨rfl, abreast.inside', abreast.ahead ▸ here.front⟩
    rw [takes s.depth s there]
    have room := here.room
    exact .ok a (by omega)
  | error e' r' =>
    cases second : action s with
    | ok a s' =>
      obtain ⟨bytes, there, -, takes⟩ := flat s.depth s a s' rfl abreast.inside' second
      have here : r.At r.depth bytes := ⟨rfl, abreast.inside, abreast.ahead ▸ there.front⟩
      have success := takes r.depth r here
      rw [first] at success
      cases success
    | error e'' s' =>
      rw [fault r e' r' first, fault s e'' s' second]
      exact .error e r' s'

theorem nested {action : Read α} (placeless : Placeless action) : Placeless (nested action) := by
  intro r s abreast
  have level := abreast.level
  by_cases deep : recursionLimit ≤ r.depth
  next =>
    simp only [Read.nested, deep, if_true]
    by_cases deep' : recursionLimit ≤ s.depth
    next =>
      rw [if_pos deep']
      exact .error _ r s
    next => exact .limit (by omega) r _
  next =>
    have shallow : ¬recursionLimit ≤ s.depth := by omega
    simp only [Read.nested, deep, shallow, if_false]
    have inner := placeless _ _ abreast.deeper
    generalize action { r with depth := r.depth + 1 } = x, action { s with depth := s.depth + 1 } = y at inner
    cases inner with
    | error e r' s' => exact .error e _ _
    | limit deeper r' => exact .limit (Nat.lt_of_succ_lt_succ deeper) _ _
    | ok a room => exact .ok a room

theorem takes_shallower {action : Read α} {depth depth' : Nat} {bytes : List UInt8} {a : α}
    (placeless : Placeless action) (takes : Takes action depth bytes a) (shallower : depth' ≤ depth) :
    Takes action depth' bytes a := by
  intro s there
  have here : Reader.At { s with depth := depth } depth bytes := ⟨rfl, there.inside, there.front⟩
  have abreast : Abreast { s with depth := depth } s :=
    ⟨there.level ▸ shallower, there.inside, there.inside, rfl⟩
  have alike := placeless _ s abreast
  rw [takes _ here] at alike
  generalize result : action s = y at alike
  generalize first : EStateM.Result.ok a (advance { s with depth := depth } bytes.length) = x at alike
  cases alike with
  | error | limit => cases first
  | @ok a' n room =>
    obtain ⟨rfl, same⟩ := EStateM.Result.ok.inj first
    rw [advance_inj same]

end Placeless

theorem placeless_byte : Placeless byte := by
  refine .of_ensures (fun depth => (ensures_byte depth).weaken ?_) .truncated ?_
  · rintro bytes b rfl depth'
    exact takes_byte depth' b
  · intro r e r' fault
    unfold byte at fault
    split at fault <;> cases fault
    rfl

theorem placeless_slice (n : Nat) : Placeless (slice n) := by
  refine .of_ensures (fun depth => (ensures_slice depth n).weaken ?_) .truncated ?_
  · rintro bytes b ⟨rfl, rfl⟩ depth'
    exact takes_slice depth' bytes
  · intro r e r' fault
    unfold slice at fault
    split at fault <;> cases fault
    rfl

theorem placeless_varintFrom (position value fuel : Nat) :
    Placeless (varintFrom position value fuel) := by
  induction fuel generalizing position value with
  | zero => exact .throw _
  | succ fuel ih =>
    refine placeless_byte.bind fun b => ?_
    split
    next => exact .throw _
    next =>
      dsimp only
      split
      next => exact .pure _
      next => exact ih _ _

theorem placeless_varint : Placeless varint :=
  placeless_varintFrom 0 0 10

theorem placeless_tag : Placeless tag :=
  placeless_varint.map _

theorem alike_whileBefore {action : σ → Read σ} (step : ∀ s, Placeless (action s)) (fuel : Nat) (s : σ)
    {r r' : Reader} {stop stop' : Nat} (abreast : r.Abreast r') (away : stop - r.index = stop' - r'.index) :
    Alike r r' (whileBefore stop action fuel s r) (whileBefore stop' action fuel s r') := by
  induction fuel generalizing s r r' with
  | zero => exact .ok s (Nat.zero_le _)
  | succ fuel ih =>
    by_cases before : r.index < stop
    next =>
      rw [whileBefore_step before, whileBefore_step (by omega)]
      refine (step s r r' abreast).bind fun t n room => ih t (abreast.advance room) ?_
      rw [advance_index, advance_index]
      omega
    next =>
      rw [whileBefore_stop (by omega), whileBefore_stop (by omega)]
      exact .ok s (Nat.zero_le _)

theorem Alike.endOf {r s : Reader} {n : Nat} {next : Nat → Read α} (abreast : r.Abreast s)
    (rest : Alike r s (next (r.index + n) r) (next (s.index + n) s)) :
    Alike r s ((Read.endOf (some n) >>= next) r) ((Read.endOf (some n) >>= next) s) := by
  have left := abreast.left
  have inside := abreast.inside
  have inside' := abreast.inside'
  by_cases room : r.index + n ≤ r.data.size
  next =>
    rwa [bind_of_ok (endOf_ok room), bind_of_ok (endOf_ok (by omega))]
  next =>
    have short : ¬s.index + n ≤ s.data.size := by omega
    change Alike r s (EStateM.bind (Read.endOf (some n)) next r) (EStateM.bind (Read.endOf (some n)) next s)
    simp only [EStateM.bind, Read.endOf, room, short, if_false]
    exact .error _ r s

theorem placeless_within {action : σ → Read σ} (step : ∀ s, Placeless (action s)) (n : Nat) (s : σ) :
    Placeless (within n s action) := by
  intro r r' abreast
  refine Alike.endOf abreast ?_
  -- The loops have as much fuel as there are bytes left, which is the same.
  rw [repeatTo, repeatTo, abreast.left]
  exact alike_whileBefore step _ s abreast (by omega)

theorem placeless_length : Placeless length :=
  placeless_varint.bind fun _ _ _ abreast => Alike.endOf abreast (.ok _ (Nat.zero_le _))

theorem placeless_bytes : Placeless Read.bytes :=
  placeless_length.bind placeless_slice

theorem placeless_string : Placeless string := by
  refine placeless_bytes.bind fun b => ?_
  split
  next => exact .pure _
  next => exact .throw _

theorem placeless_double : Placeless double :=
  (((placeless_slice 8).map _).map _).map _

theorem placeless_message {decode : Option Nat → Read α} (content : ∀ n, Placeless (decode (some n))) :
    Placeless (message decode) :=
  placeless_length.bind fun n => (content n).nested

-- Fuel is spent in one place as in the other.
mutual

theorem placeless_skipWith (fuel tag : Nat) : Placeless (skipWith fuel tag) := by
  cases type : WireType.ofNumber? (tag % 8) with
  | none =>
    rw [skipWith.eq_def, type]
    exact .throw _
  | some wireType =>
    cases wireType with
    | varint =>
      rw [skipWith.eq_def, type]
      exact placeless_varint.map _
    | fixed64 =>
      rw [skipWith.eq_def, type]
      exact (placeless_slice 8).map _
    | delimited =>
      rw [skipWith.eq_def, type]
      exact placeless_length.bind fun n => (placeless_slice n).map _
    | fixed32 =>
      rw [skipWith.eq_def, type]
      exact (placeless_slice 4).map _
    | endGroup =>
      rw [skipWith.eq_def, type]
      exact .throw _
    | startGroup =>
      rw [skipWith.eq_def, type]
      cases fuel with
      | zero => exact .throw _
      | succ fuel => exact (placeless_skipGroup fuel (tag / 8)).nested

theorem placeless_skipGroup (fuel field : Nat) : Placeless (skipGroup fuel field) := by
  rw [skipGroup]
  refine placeless_tag.bind fun tag => ?_
  by_cases ends : tag % 8 = WireType.endGroup.number
  next =>
    simp only [ends, if_true]
    split
    next => exact .pure ()
    next => exact .throw _
  next =>
    simp only [ends, if_false]
    cases fuel with
    | zero => exact .throw _
    | succ fuel => exact (placeless_skipWith fuel tag).bind fun _ => placeless_skipGroup fuel field

end

theorem placeless_skip (tag : Nat) : Placeless (skip tag) := by
  intro r s abreast
  rw [skip, skip, abreast.left]
  exact placeless_skipWith _ tag r s abreast

end Read

end Protogen.Wire
