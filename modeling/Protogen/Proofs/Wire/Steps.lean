import Protogen.Proofs.Wire.Pieces
import Protogen.Proofs.Wire.Scalars

set_option autoImplicit false

namespace Protogen.Wire

/-- A step: the reader from which it is taken, and how many bytes it asks for from there on. -/
structure Step where
  reader : Reader
  asked : Nat

-- In words of 64 bits the sum of the position and what is asked for is no other number, and it passes a check
-- against the buffer only if the bytes are there.
structure Step.Fits (step : Step) : Prop where
  sum : step.reader.index + step.asked < 18446744073709551616
  room : (step.reader.index + step.asked) % 18446744073709551616 ≤ step.reader.data.size →
    step.reader.index + step.asked ≤ step.reader.data.size

theorem Step.fits_of_sum {step : Step} (sum : step.reader.index + step.asked < 18446744073709551616) : step.Fits :=
  ⟨sum, fun room => by rwa [Nat.mod_eq_of_lt sum] at room⟩

namespace Reader

def deeper (r : Reader) : Reader :=
  { r with depth := r.depth + 1 }

/-- The second reader stands where the first may come to at the same level. -/
structure Onward (r s : Reader) : Prop where
  data : s.data = r.data
  later : r.index ≤ s.index
  inside : s.index ≤ r.data.size
  level : s.depth = r.depth

-- The second reader stands where the first may come to, and no deeper than it may go.
structure Within (r s : Reader) : Prop where
  data : s.data = r.data
  later : r.index ≤ s.index
  inside : s.index ≤ r.data.size
  shallow : s.depth ≤ recursionLimit

theorem Onward.refl {r : Reader} (inside : r.index ≤ r.data.size) : r.Onward r :=
  ⟨rfl, Nat.le_refl _, inside, rfl⟩

theorem Onward.trans {r s t : Reader} (first : r.Onward s) (second : s.Onward t) : r.Onward t where
  data := second.data.trans first.data
  later := Nat.le_trans first.later second.later
  inside := by
    have inside := second.inside
    rwa [first.data] at inside
  level := second.level.trans first.level

theorem Onward.within {r s t : Reader} (first : r.Onward s) (second : s.Within t) : r.Within t where
  data := second.data.trans first.data
  later := Nat.le_trans first.later second.later
  inside := by
    have inside := second.inside
    rwa [first.data] at inside
  shallow := second.shallow

theorem within_self {r : Reader} (inside : r.index ≤ r.data.size) (shallow : r.depth ≤ recursionLimit) :
    r.Within r :=
  ⟨rfl, Nat.le_refl _, inside, shallow⟩

theorem onward_advance {r : Reader} {n : Nat} (room : r.index + n ≤ r.data.size) : r.Onward (r.advance n) :=
  ⟨rfl, Nat.le_add_right .., room, rfl⟩

end Reader

namespace Read

variable {α β σ : Type}

def after (action : Read α) (r : Reader) : Reader :=
  match action r with
  | .ok _ r' => r'
  | .error _ r' => r'

theorem after_bind (action : Read α) (next : α → Read β) (r : Reader) : after (action >>= next) r =
    match action r with
    | .ok a r' => after (next a) r'
    | .error _ r' => r' := by
  change after (EStateM.bind action next) r = _
  simp only [after, EStateM.bind]
  cases action r <;> rfl

def stepsThen (action : Read α) (steps : Reader → List Step) (later : α → Reader → List Step) (r : Reader) :
    List Step :=
  steps r ++
    match action r with
    | .ok a r' => later a r'
    | .error _ _ => []

def stepsBelow (steps : Reader → List Step) (r : Reader) : List Step :=
  ⟨r, 0⟩ :: if recursionLimit ≤ r.depth then [] else ⟨r.deeper, 0⟩ :: steps r.deeper

/-- The action is made of what moves a reader or looks where it stands, and these are its steps from a reader on.
Bytes are had in no other way. To look for an end asks for nothing, as a sum that is too large is an answer there. -/
inductive Traced : {α : Type} → Read α → (Reader → List Step) → Prop
  | pure {α : Type} (a : α) : Traced (Pure.pure a : Read α) fun _ => []
  | throw {α : Type} (e : CodecError) : Traced (MonadExcept.throw e : Read α) fun _ => []
  | byte : Traced byte fun r => [⟨r, 1⟩]
  | slice (n : Nat) : Traced (slice n) fun r => [⟨r, n⟩]
  | endOf (length : Option Nat) : Traced (endOf length) fun r => [⟨r, 0⟩]
  | index : Traced index fun r => [⟨r, 0⟩]
  | ahead (n : Nat) : Traced (do return n + (← Read.index)) fun r => [⟨r, n⟩]
  | bind {α β : Type} {action : Read α} {next : α → Read β} {steps : Reader → List Step}
      {later : α → Reader → List Step} (first : Traced action steps)
      (second : ∀ a, Traced (next a) (later a)) : Traced (action >>= next) (stepsThen action steps later)
  | nested {α : Type} {action : Read α} {steps : Reader → List Step} (inner : Traced action steps) :
      Traced (nested action) (stepsBelow steps)
  | measured {α : Type} {action : Nat → Read α} {steps : Nat → Reader → List Step}
      (each : ∀ n, Traced (action n) (steps n)) :
      Traced (fun r => action (r.data.size - r.index) r) fun r => steps (r.data.size - r.index) r

theorem onward_byte {r : Reader} (inside : r.index ≤ r.data.size) : r.Onward (after byte r) := by
  by_cases room : r.index < r.data.size
  next =>
    simp only [after, byte, room, dif_pos]
    exact Reader.onward_advance (n := 1) room
  next =>
    simp only [after, byte, room, dif_neg, not_false_eq_true]
    exact .refl inside

theorem onward_slice {r : Reader} (inside : r.index ≤ r.data.size) (n : Nat) : r.Onward (after (slice n) r) := by
  by_cases room : r.index + n ≤ r.data.size
  next =>
    simp only [after, slice, room, if_true]
    exact Reader.onward_advance room
  next =>
    simp only [after, slice, room, if_false]
    exact .refl inside

theorem after_endOf (length : Option Nat) (r : Reader) : after (endOf length) r = r := by
  unfold after endOf
  cases length with
  | none => rfl
  | some n =>
    dsimp only
    split
    next success =>
      split at success <;> cases success
      rfl
    next fault =>
      split at fault <;> cases fault
      rfl

theorem after_nested (action : Read α) (r : Reader) : after (nested action) r =
    if recursionLimit ≤ r.depth then r
    else { after action r.deeper with depth := (after action r.deeper).depth - 1 } := by
  by_cases deep : recursionLimit ≤ r.depth
  next => simp only [after, nested, deep, if_true]
  next =>
    simp only [after, nested, deep, if_false]
    change (match (match action r.deeper with
      | .ok a r => EStateM.Result.ok a { r with depth := r.depth - 1 }
      | .error e r => .error e { r with depth := r.depth - 1 }) with
      | .ok _ r' => r'
      | .error _ r' => r') = _
    cases action r.deeper <;> rfl

namespace Traced

variable {action : Read α} {steps : Reader → List Step} {r : Reader} {step : Step}

theorem onward (traced : Traced action steps) (inside : r.index ≤ r.data.size) : r.Onward (action.after r) := by
  -- The reader varies, as a second action begins where the first has left it.
  induction traced generalizing r with
  | pure | throw | index | ahead => exact .refl inside
  | byte => exact onward_byte inside
  | slice n => exact onward_slice inside n
  | endOf length =>
    rw [after_endOf]
    exact .refl inside
  | @bind _ _ action next _ _ first second ih ih' =>
    have onward := ih inside
    rw [after_bind]
    unfold after at onward
    split at onward
    next a r' success =>
      exact onward.trans (ih' a (onward.data ▸ onward.inside))
    next => exact onward
  | nested inner ih =>
    rw [after_nested]
    split
    next => exact .refl inside
    next =>
      have onward := ih (r := r.deeper) inside
      -- The action inside has kept the deeper level, so that one less is the level from before.
      exact ⟨onward.data, onward.later, onward.inside, by rw [onward.level]; rfl⟩
  | measured each ih => exact ih _ inside

-- An action leaves a reader as deep as it was, wherever it stands.
theorem level (traced : Traced action steps) (r : Reader) : (action.after r).depth = r.depth := by
  induction traced generalizing r with
  | pure | throw | index | ahead => rfl
  | byte =>
    by_cases room : r.index < r.data.size
    next => simp only [after, Read.byte, room, dif_pos]
    next => simp only [after, Read.byte, room, dif_neg, not_false_eq_true]
  | slice n =>
    by_cases room : r.index + n ≤ r.data.size
    next => simp only [after, Read.slice, room, if_true]
    next => simp only [after, Read.slice, room, if_false]
  | endOf length => rw [after_endOf]
  | @bind _ _ action next _ _ first second ih ih' =>
    have kept := ih r
    rw [after_bind]
    unfold after at kept
    split at kept
    next a r' success => exact (ih' a r').trans kept
    next => exact kept
  | nested inner ih =>
    rw [after_nested]
    split
    next => rfl
    next =>
      rw [ih]
      rfl
  | measured each ih => exact ih _ r

theorem within (traced : Traced action steps) (inside : r.index ≤ r.data.size)
    (shallow : r.depth ≤ recursionLimit) (member : step ∈ steps r) : r.Within step.reader := by
  induction traced generalizing r with
  | pure | throw => cases member
  | byte | slice | endOf | index | ahead =>
    obtain rfl := List.mem_singleton.1 member
    exact Reader.within_self inside shallow
  | @bind _ _ action next _ _ first second ih ih' =>
    rcases List.mem_append.1 member with early | late
    next => exact ih inside shallow early
    next =>
      -- A step of the second action is taken only if the first has succeeded.
      have onward := first.onward inside
      unfold after at onward
      split at onward
      next a r' success =>
        rw [success] at late
        exact onward.within (ih' a (onward.data ▸ onward.inside) (onward.level ▸ shallow) late)
      next fault =>
        rw [fault] at late
        cases late
  | nested inner ih =>
    rcases List.mem_cons.1 member with rfl | below
    next => exact Reader.within_self inside shallow
    next =>
      split at below
      next => cases below
      next high =>
        have room : r.deeper.depth ≤ recursionLimit := Nat.lt_of_not_le high
        rcases List.mem_cons.1 below with rfl | below
        next => exact ⟨rfl, Nat.le_refl _, inside, room⟩
        next =>
          have within := ih (r := r.deeper) inside room below
          exact ⟨within.data, within.later, within.inside, within.shallow⟩
  | measured each ih => exact ih _ inside shallow member

end Traced

-- The action is made of steps, none of which asks for 4 GiB.
def Narrow (action : Read α) : Prop :=
  ∃ steps, Traced action steps ∧ ∀ r, ∀ step ∈ steps r, step.asked < 4294967296

namespace Narrow

theorem pure (a : α) : Narrow (Pure.pure a : Read α) :=
  ⟨_, .pure a, nofun⟩

theorem throw (e : CodecError) : Narrow (MonadExcept.throw e : Read α) :=
  ⟨_, .throw e, nofun⟩

theorem byte : Narrow byte :=
  ⟨_, .byte, fun _ => by simp⟩

theorem slice {n : Nat} (small : n < 4294967296) : Narrow (slice n) :=
  ⟨_, .slice n, fun _ => by simpa using small⟩

theorem ahead {n : Nat} (small : n < 4294967296) : Narrow (do return n + (← Read.index)) :=
  ⟨_, .ahead n, fun _ => by simpa using small⟩

theorem endOf (length : Option Nat) : Narrow (endOf length) :=
  ⟨_, .endOf length, fun _ => by simp⟩

theorem index : Narrow index :=
  ⟨_, .index, fun _ => by simp⟩

theorem bind {action : Read α} {next : α → Read β} (first : Narrow action) (second : ∀ a, Narrow (next a)) :
    Narrow (action >>= next) := by
  obtain ⟨steps, traced, few⟩ := first
  choose later traced' few' using second
  refine ⟨_, .bind traced traced', fun r step member => ?_⟩
  rcases List.mem_append.1 member with early | late
  next => exact few r step early
  next =>
    split at late
    next a r' _ => exact few' a r' step late
    next => cases late

theorem map {action : Read α} (f : α → β) (narrow : Narrow action) : Narrow (do return f (← action)) :=
  narrow.bind fun a => pure (f a)

theorem nested {action : Read α} (narrow : Narrow action) : Narrow (nested action) := by
  obtain ⟨steps, traced, few⟩ := narrow
  refine ⟨_, .nested traced, fun r step member => ?_⟩
  rcases List.mem_cons.1 member with rfl | below
  next => exact (by decide : 0 < 4294967296)
  next =>
    split at below
    next => cases below
    next =>
      rcases List.mem_cons.1 below with rfl | below
      next => exact (by decide : 0 < 4294967296)
      next => exact few _ step below

theorem measured {action : Nat → Read α} (each : ∀ n, Narrow (action n)) :
    Narrow fun r => action (r.data.size - r.index) r := by
  choose steps traced few using each
  exact ⟨_, .measured traced, fun r => few _ r⟩

theorem varintFrom (position value fuel : Nat) : Narrow (varintFrom position value fuel) := by
  induction fuel generalizing position value with
  | zero => exact throw _
  | succ fuel ih =>
    refine byte.bind fun b => ?_
    split
    next => exact throw _
    next =>
      dsimp only
      split
      next => exact pure _
      next => exact ih _ _

theorem varint : Narrow varint :=
  varintFrom 0 0 10

-- What follows a length may ask for as many bytes as that says.
theorem length_bind {next : Nat → Read α} (second : ∀ n < 4294967296, Narrow (next n)) :
    Narrow (length >>= next) := by
  -- After `length` as a whole nothing is known of its result, so it is taken apart first.
  have apart : length >>= next = Read.varint >>= fun v => Read.endOf (some (v % 4294967296)) >>= fun _ =>
      next (v % 4294967296) := by
    simp only [length, bind_assoc, pure_bind]
  rw [apart]
  exact varint.bind fun v => (endOf _).bind fun _ => second _ (Nat.mod_lt v (by decide))

theorem fixed {n : Nat} (small : n < 4294967296) : Narrow (fixed n) :=
  (slice small).map _

theorem bytes : Narrow bytes :=
  length_bind fun _ small => slice small

theorem whileBefore {action : σ → Read σ} (each : ∀ s, Narrow (action s)) (stop fuel : Nat) (s : σ) :
    Narrow (whileBefore stop action fuel s) := by
  induction fuel generalizing s with
  | zero => exact pure s
  | succ fuel ih =>
    rw [Read.whileBefore]
    refine index.bind fun i => ?_
    split
    next => exact (each s).bind ih
    next => exact pure s

theorem repeatTo {action : σ → Read σ} (each : ∀ s, Narrow (action s)) (stop : Nat) (start : σ) :
    Narrow (repeatTo stop start action) :=
  measured fun fuel => whileBefore each stop fuel start

theorem tag : Narrow tag :=
  varint.map _

mutual

theorem skipWith (fuel tag : Nat) : Narrow (skipWith fuel tag) := by
  rw [Read.skipWith.eq_def]
  split
  next => exact varint.map _
  next => exact (slice (by decide)).map _
  next => exact length_bind fun _ small => (slice small).map _
  next =>
    cases fuel with
    | zero => exact throw _
    | succ fuel => exact (skipGroup fuel (tag / 8)).nested
  next => exact (slice (by decide)).map _
  next => exact throw _

theorem skipGroup (fuel field : Nat) : Narrow (skipGroup fuel field) := by
  rw [Read.skipGroup]
  refine Narrow.tag.bind fun tag => ?_
  split
  next =>
    split
    next => exact pure ()
    next => exact throw _
  next =>
    cases fuel with
    | zero => exact throw _
    | succ fuel => exact (skipWith fuel tag).bind fun _ => skipGroup fuel field

end

theorem skip (tag : Nat) : Narrow (skip tag) :=
  measured fun left => skipWith (2 * left + 2) tag

theorem scalar (k : Kind) : Narrow k.read := by
  cases k with
  | uint32 | int32 | sint32 | uint64 | int64 | sint64 | bool => exact varint.map _
  | fixed32 | sfixed32 | fixed64 | sfixed64 => exact (fixed (by decide)).map _
  | single | double => exact ((fixed (by decide)).map _).map _
  | bytes => exact bytes
  | string =>
    refine bytes.bind fun b => ?_
    split
    next => exact pure _
    next => exact throw _

end Narrow

/-- What can be done with a reader from outside: its operations, put together in any way. -/
inductive Client : {α : Type} → Read α → Prop
  | pure {α : Type} (a : α) : Client (Pure.pure a : Read α)
  | throw {α : Type} (e : CodecError) : Client (MonadExcept.throw e : Read α)
  | bind {α β : Type} {action : Read α} {next : α → Read β} (first : Client action)
      (second : ∀ a, Client (next a)) : Client (action >>= next)
  | varint : Client varint
  | scalar (k : Kind) : Client k.read
  | length : Client length
  -- Where the bytes end that a length announces.
  | extent : Client (do let n ← Read.length; return n + (← index))
  | endOf (length : Option Nat) : Client (endOf length)
  | skip (tag : Nat) : Client (skip tag)
  | repeatTo {σ : Type} {action : σ → Read σ} (each : ∀ s, Client (action s)) (stop : Nat) (start : σ) :
      Client (repeatTo stop start action)
  | message {α : Type} {decode : Option Nat → Read α} (each : ∀ length, Client (decode length)) :
      Client (message decode)

namespace Client

theorem map {action : Read α} (f : α → β) (client : Client action) : Client (do return f (← action)) :=
  client.bind fun a => .pure (f a)

theorem narrow {action : Read α} (client : Client action) : Narrow action := by
  induction client with
  | pure a => exact .pure a
  | throw e => exact .throw e
  | bind first second ih ih' => exact ih.bind ih'
  | varint => exact .varint
  | scalar k => exact .scalar k
  | length => exact bind_pure Read.length ▸ Narrow.length_bind fun n _ => .pure n
  | extent => exact .length_bind fun _ small => .ahead small
  | endOf length => exact .endOf length
  | skip tag => exact .skip tag
  | repeatTo each stop start ih => exact .repeatTo ih stop start
  | message each ih => exact .length_bind fun n _ => (ih (some n)).nested

-- No buffer in memory has 2^63 bytes, so that a sum of a position and what is asked for there is one of 64 bits.
theorem safe {action : Read α} (client : Client action) {r : Reader} (inside : r.index ≤ r.data.size)
    (shallow : r.depth ≤ recursionLimit) : r.Onward (action.after r) ∧
      ∃ steps, Traced action steps ∧ ∀ step ∈ steps r, r.Within step.reader ∧
        (r.data.size < 9223372036854775808 → step.Fits) := by
  obtain ⟨steps, traced, few⟩ := client.narrow
  refine ⟨traced.onward inside, steps, traced, fun step member => ?_⟩
  have within := traced.within inside shallow member
  refine ⟨within, fun memory => Step.fits_of_sum ?_⟩
  have place := within.inside
  have asked := few r step member
  omega

end Client

end Read

end Protogen.Wire
