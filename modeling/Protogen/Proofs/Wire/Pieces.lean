import Protogen.Proofs.Wire.Values

set_option autoImplicit false

namespace Protogen.Wire.Read

variable {σ : Type} {action : σ → Read σ} {depth : Nat}

/-- With `n` bytes to go the action, repeated, takes the bytes and leads from one state to another. -/
inductive Pieces (action : σ → Read σ) (depth : Nat) : Nat → σ → List UInt8 → σ → Prop
  | done (s : σ) : Pieces action depth 0 s [] s
  | step {n : Nat} {s t u : σ} {bytes more : List UInt8} (left : 0 < n) (nonempty : 0 < bytes.length)
      (first : Takes (action s) depth bytes t)
      (rest : Pieces action depth (n - bytes.length) t more u) :
      Pieces action depth n s (bytes ++ more) u

-- A loop that checks first that its bytes are there.
def within (n : Nat) (start : σ) (action : σ → Read σ) : Read σ := do
  let stop ← endOf (some n)
  repeatTo stop start action

theorem whileBefore_step {stop fuel : Nat} {s : σ} {r : Reader} (before : r.index < stop) :
    whileBefore stop action (fuel + 1) s r = (action s >>= whileBefore stop action fuel) r := by
  rw [whileBefore]
  change (if r.index < stop then action s >>= whileBefore stop action fuel else pure s) r = _
  rw [if_pos before]

theorem whileBefore_stop {stop fuel : Nat} {s : σ} {r : Reader} (past : stop ≤ r.index) :
    whileBefore stop action fuel s r = .ok s r := by
  cases fuel with
  | zero => rfl
  | succ fuel =>
    rw [whileBefore]
    change (if r.index < stop then action s >>= whileBefore stop action fuel else pure s) r = _
    rw [if_neg (Nat.not_lt.2 past)]
    rfl

namespace Pieces

variable {n m : Nat} {s t u : σ} {bytes more : List UInt8}

theorem le_length (pieces : Pieces action depth n s bytes t) : n ≤ bytes.length := by
  induction pieces with
  | done => exact Nat.le_refl 0
  | step _ _ _ _ ih =>
    rw [List.length_append]
    omega

theorem whileBefore (pieces : Pieces action depth n s bytes t) {r : Reader} {stop fuel : Nat}
    (here : r.At depth bytes) (away : stop - r.index = n) (enough : n ≤ fuel) :
    whileBefore stop action fuel s r = .ok t (r.advance bytes.length) := by
  induction pieces generalizing r fuel with
  | done => exact whileBefore_stop (by omega)
  | step left nonempty first rest ih =>
    obtain ⟨fuel, rfl⟩ : ∃ k, fuel = k + 1 := ⟨fuel - 1, by omega⟩
    rw [whileBefore_step (by omega), bind_ok (first r here.left)
      (ih here.right (by rw [Reader.advance_index]; omega) (by omega))]
    simp

theorem takes_within (pieces : Pieces action depth n s bytes t) :
    Takes (within n s action) depth bytes t := by
  intro r here
  have room := here.room
  have long := pieces.le_length
  exact bind_ok (endOf_ok (by omega)) (pieces.whileBefore here (by omega) (by omega))

theorem invariant {holds : Nat → σ → Prop} {taken : Nat}
    (keeps : ∀ taken s, holds taken s →
      Ensures (action s) depth fun bytes t => holds (taken + bytes.length) t)
    (pieces : Pieces action depth n s bytes t) (start : holds taken s) :
    holds (taken + bytes.length) t := by
  induction pieces generalizing taken with
  | done => exact start
  | step _ _ first _ ih =>
    rw [List.length_append, ← Nat.add_assoc]
    exact ih (first.of_ensures (keeps _ _ start))

theorem single (nonempty : 0 < bytes.length) (first : Takes (action s) depth bytes t) :
    Pieces action depth bytes.length s bytes t := by
  have last : Pieces action depth (bytes.length - bytes.length) t [] t := by
    rw [Nat.sub_self]
    exact done t
  simpa using step nonempty nonempty first last

theorem append (first : Pieces action depth n s bytes t) (exact : bytes.length = n)
    (second : Pieces action depth m t more u) : Pieces action depth (n + m) s (bytes ++ more) u := by
  induction first with
  | done => simpa using second
  | @step n s t _ piece bytes left nonempty takes rest ih =>
    rw [List.length_append] at exact
    rw [List.append_assoc]
    refine step (by omega) nonempty takes ?_
    have fewer : n + m - piece.length = n - piece.length + m := by omega
    rw [fewer]
    exact ih (by omega) second

-- What follows pieces that fit exactly is determined by them.
theorem of_append (first : Pieces action depth n s bytes t) (exact : bytes.length = n)
    (both : Pieces action depth (n + m) s (bytes ++ more) u) : Pieces action depth m t more u := by
  induction first with
  | done => simpa using both
  | @step n s t _ piece bytes left nonempty takes rest ih =>
    rw [List.length_append] at exact
    rw [List.append_assoc] at both
    -- Both begin at one place with one action, so with the same piece.
    generalize whole : piece ++ (bytes ++ more) = all at both
    generalize total : n + m = sum at both
    cases both with
    | done => omega
    | @step _ _ t' _ piece' more' left' nonempty' takes' rest' =>
      have here := Reader.at_holding depth (piece ++ (bytes ++ more))
      have there : (Reader.holding depth (piece ++ (bytes ++ more))).At depth (piece' ++ more') :=
        ⟨here.level, here.inside, whole ▸ here.front⟩
      obtain ⟨rfl, rfl⟩ := takes.unique takes' here.left there.left
      have fewer : sum - piece.length = n - piece.length + m := by omega
      rw [fewer, ← List.append_cancel_left whole] at rest'
      exact ih (by omega) rest'

theorem unique (first : Pieces action depth n s bytes t) (exact : bytes.length = n)
    (second : Pieces action depth n s (bytes ++ more) u) : more = [] ∧ u = t := by
  have rest : Pieces action depth 0 t more u := first.of_append exact second
  generalize none : 0 = m at rest
  cases rest with
  | done => exact ⟨rfl, rfl⟩
  | step left => omega

end Pieces

theorem pieces_of_whileBefore (confined : ∀ s, Confined 1 (action s)) {stop fuel : Nat} {s t : σ}
    {r r' : Reader} (inside : r.index ≤ r.data.size) (enough : stop - r.index ≤ fuel)
    (success : whileBefore stop action fuel s r = .ok t r') :
    ∃ bytes, r.At r.depth bytes ∧ r' = r.advance bytes.length ∧
      Pieces action r.depth (stop - r.index) s bytes t := by
  -- A piece takes a byte at least, so fuel for the bytes to go is fuel for the pieces.
  induction fuel generalizing s r with
  | zero =>
    have none : stop - r.index = 0 := by omega
    cases success
    rw [none]
    exact ⟨[], ⟨rfl, inside, List.nil_prefix⟩, rfl, .done _⟩
  | succ fuel ih =>
    by_cases before : r.index < stop
    · rw [whileBefore_step before] at success
      obtain ⟨s', r₁, first, success⟩ := bind_eq_ok success
      obtain ⟨bytes, here, rfl, nonempty, takes⟩ := (confined s).taken inside first
      obtain ⟨more, there, rfl, rest⟩ := ih here.room (by rw [Reader.advance_index]; omega) success
      refine ⟨bytes ++ more, here.append there, by simp, .step (by omega) nonempty takes ?_⟩
      simpa [Nat.sub_add_eq] using rest
    · have none : stop - r.index = 0 := by omega
      rw [whileBefore_stop (Nat.le_of_not_lt before)] at success
      cases success
      rw [none]
      exact ⟨[], ⟨rfl, inside, List.nil_prefix⟩, rfl, .done _⟩

-- Fuel for the bytes to go is enough, and more of it changes nothing.
theorem whileBefore_enough (confined : ∀ s, Confined 1 (action s)) {stop fuel fuel' : Nat} {s : σ}
    {r : Reader} (inside : r.index ≤ r.data.size) (enough : stop - r.index ≤ fuel)
    (enough' : stop - r.index ≤ fuel') :
    whileBefore stop action fuel s r = whileBefore stop action fuel' s r := by
  induction fuel generalizing fuel' s r with
  | zero => rw [whileBefore_stop (by omega), whileBefore_stop (by omega)]
  | succ fuel ih =>
    by_cases before : r.index < stop
    next =>
      obtain ⟨fuel', rfl⟩ : ∃ k, fuel' = k + 1 := ⟨fuel' - 1, by omega⟩
      rw [whileBefore_step before, whileBefore_step before]
      change EStateM.bind _ _ r = EStateM.bind _ _ r
      simp only [EStateM.bind]
      cases first : action s r with
      | error e r' => rfl
      | ok t r' =>
        obtain ⟨bytes, here, rfl, nonempty, -⟩ := (confined s).taken inside first
        exact ih here.room (by rw [Reader.advance_index]; omega) (by rw [Reader.advance_index]; omega)
    next => rw [whileBefore_stop (by omega), whileBefore_stop (by omega)]

theorem Pieces.whileBefore_append {n stop fuel : Nat} {s t : σ} {bytes : List UInt8} {r : Reader}
    (pieces : Pieces action depth n s bytes t) (exact : bytes.length = n) (here : r.At depth bytes)
    (before : r.index + n ≤ stop) (enough : stop - r.index ≤ fuel) :
    ∃ fuel', stop - (r.index + n) ≤ fuel' ∧
      Read.whileBefore stop action fuel s r = Read.whileBefore stop action fuel' t (r.advance n) := by
  induction pieces generalizing r fuel with
  | done => exact ⟨fuel, enough, rfl⟩
  | @step n s t _ piece bytes left nonempty first rest ih =>
    rw [List.length_append] at exact
    obtain ⟨fuel, rfl⟩ : ∃ k, fuel = k + 1 := ⟨fuel - 1, by omega⟩
    have later : stop - (r.advance piece.length).index ≤ fuel := by
      rw [Reader.advance_index]
      omega
    obtain ⟨fuel', still, same⟩ := ih (by omega) here.right (by rw [Reader.advance_index]; omega) later
    rw [Reader.advance_index] at still
    have ends : piece.length + (n - piece.length) = n := by omega
    refine ⟨fuel', by omega, ?_⟩
    rw [whileBefore_step (by omega), bind_of_ok (first r here.left), same, Reader.advance_advance, ends]

theorem ensures_within (confined : ∀ s, Confined 1 (action s)) (depth n : Nat) (s : σ) :
    Ensures (within n s action) depth fun bytes t => Pieces action depth n s bytes t := by
  intro r t r' level inside success
  obtain ⟨stop, r₁, check, success⟩ := bind_eq_ok success
  obtain ⟨rfl, rfl, room⟩ := endOf_eq_ok check
  obtain ⟨bytes, here, same, pieces⟩ := pieces_of_whileBefore confined inside (by omega) success
  rw [Nat.add_sub_cancel_left, level] at pieces
  exact ⟨bytes, level ▸ here, same, pieces⟩

theorem confined_within (confined : ∀ s, Confined 1 (action s)) (n : Nat) (s : σ) :
    Confined n (within n s action) := by
  intro depth
  refine (ensures_within confined depth n s).weaken ?_
  intro bytes t pieces
  exact ⟨pieces.le_length, pieces.takes_within⟩

end Protogen.Wire.Read
