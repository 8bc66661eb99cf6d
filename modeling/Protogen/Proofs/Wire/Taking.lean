import Mathlib
import Protogen.Wire.Reader

set_option autoImplicit false

namespace Protogen.Wire

namespace Reader

def advance (r : Reader) (n : Nat) : Reader :=
  { r with index := r.index + n }

-- The reader stands in its buffer, that many levels deep, in front of the bytes.
structure At (r : Reader) (depth : Nat) (bytes : List UInt8) : Prop where
  level : r.depth = depth
  inside : r.index ≤ r.data.size
  front : bytes <+: r.remaining

@[simp] theorem advance_data (r : Reader) (n : Nat) : (r.advance n).data = r.data := rfl
@[simp] theorem advance_index (r : Reader) (n : Nat) : (r.advance n).index = r.index + n := rfl
@[simp] theorem advance_depth (r : Reader) (n : Nat) : (r.advance n).depth = r.depth := rfl

@[simp] theorem advance_advance (r : Reader) (m n : Nat) :
    (r.advance m).advance n = r.advance (m + n) := by
  simp only [advance, Nat.add_assoc]

theorem advance_inj {r : Reader} {m n : Nat} (same : r.advance m = r.advance n) : m = n := by
  have index := congrArg Reader.index same
  simpa using index

@[simp] theorem length_remaining (r : Reader) : r.remaining.length = r.data.size - r.index := by
  simp only [remaining, List.length_drop, Array.length_toList, ByteArray.size]

theorem remaining_advance (r : Reader) (n : Nat) :
    (r.advance n).remaining = r.remaining.drop n := by
  simp [remaining]

namespace At

variable {r : Reader} {depth : Nat} {bytes more : List UInt8}

theorem room (here : r.At depth bytes) : r.index + bytes.length ≤ r.data.size := by
  have short := here.front.length_le
  have inside := here.inside
  rw [length_remaining] at short
  omega

theorem left (here : r.At depth (bytes ++ more)) : r.At depth bytes :=
  ⟨here.level, here.inside, (List.prefix_append bytes more).trans here.front⟩

theorem right (here : r.At depth (bytes ++ more)) : (r.advance bytes.length).At depth more := by
  refine ⟨here.level, here.left.room, ?_⟩
  obtain ⟨rest, split⟩ := here.front
  refine ⟨rest, ?_⟩
  rw [remaining_advance, ← split, List.append_assoc, List.drop_left]

theorem append (here : r.At depth bytes) (there : (r.advance bytes.length).At depth more) :
    r.At depth (bytes ++ more) := by
  refine ⟨here.level, here.inside, ?_⟩
  obtain ⟨rest, split⟩ := here.front
  obtain ⟨rest', split'⟩ := there.front
  refine ⟨rest', ?_⟩
  rw [remaining_advance, ← split, List.drop_left] at split'
  rw [← split, ← split', List.append_assoc]

theorem unique (here : r.At depth bytes) (there : r.At depth more)
    (same : bytes.length = more.length) : bytes = more := by
  have first := List.prefix_iff_eq_take.1 here.front
  have second := List.prefix_iff_eq_take.1 there.front
  rw [first, second, same]

end At

def cut (r : Reader) (stop : Nat) : Reader :=
  { r with data := r.data.extract 0 stop }

theorem size_cut {r : Reader} {stop : Nat} (room : stop ≤ r.data.size) :
    (r.cut stop).data.size = stop := by
  simp [cut, Nat.min_eq_left room]

theorem at_cut_iff {r : Reader} {depth stop : Nat} {bytes : List UInt8} (room : stop ≤ r.data.size) :
    (r.cut stop).At depth bytes ↔ r.At depth bytes ∧ r.index + bytes.length ≤ stop := by
  have remaining : (r.cut stop).remaining = r.remaining.take (stop - r.index) := by
    simp [cut, Reader.remaining, List.drop_take, List.extract_eq_take_drop]
  constructor
  · intro here
    have fits : r.index + bytes.length ≤ (r.cut stop).data.size := here.room
    have front := here.front
    rw [size_cut room] at fits
    rw [remaining] at front
    exact ⟨⟨here.level, by omega, front.trans (List.take_prefix _ _)⟩, fits⟩
  · rintro ⟨here, fits⟩
    refine ⟨here.level, by rw [size_cut room]; change r.index ≤ stop; omega, ?_⟩
    rw [remaining, List.prefix_take_iff]
    exact ⟨here.front, by omega⟩

def holding (depth : Nat) (bytes : List UInt8) : Reader :=
  { data := ⟨bytes.toArray⟩, depth := depth }

@[simp] theorem remaining_holding (depth : Nat) (bytes : List UInt8) :
    (holding depth bytes).remaining = bytes := by
  simp [holding, remaining]

theorem at_holding (depth : Nat) (bytes : List UInt8) : (holding depth bytes).At depth bytes :=
  ⟨rfl, Nat.zero_le _, by simp⟩

end Reader

namespace Read

variable {α β : Type}

/-- In front of the bytes, the action takes just these and gives the value. -/
def Takes (action : Read α) (depth : Nat) (bytes : List UInt8) (a : α) : Prop :=
  ∀ r, r.At depth bytes → action r = .ok a (r.advance bytes.length)

/-- Where the action succeeds it has taken bytes that stand there, and they and the value are as `post`
says. -/
def Ensures (action : Read α) (depth : Nat) (post : List UInt8 → α → Prop) : Prop :=
  ∀ r a r', r.depth = depth → r.index ≤ r.data.size → action r = .ok a r' →
    ∃ bytes, r.At depth bytes ∧ r' = r.advance bytes.length ∧ post bytes a

/-- A success takes at least so many bytes, and would have been the same wherever they stand. -/
def Confined (least : Nat) (action : Read α) : Prop :=
  ∀ depth, Ensures action depth fun bytes a => least ≤ bytes.length ∧ Takes action depth bytes a

theorem bind_of_ok {action : Read α} {r r' : Reader} {a : α} (first : action r = .ok a r')
    (next : α → Read β) : (action >>= next) r = next a r' := by
  change EStateM.bind action next r = _
  simp only [EStateM.bind, first]

theorem bind_ok {action : Read α} {next : α → Read β} {r r' r'' : Reader} {a : α} {b : β}
    (first : action r = .ok a r') (second : next a r' = .ok b r'') :
    (action >>= next) r = .ok b r'' :=
  (bind_of_ok first next).trans second

theorem bind_eq_ok {action : Read α} {next : α → Read β} {r r'' : Reader} {b : β}
    (both : (action >>= next) r = .ok b r'') :
    ∃ a r', action r = .ok a r' ∧ next a r' = .ok b r'' := by
  change EStateM.bind action next r = _ at both
  simp only [EStateM.bind] at both
  cases first : action r with
  | ok a r' => exact ⟨a, r', rfl, by simpa only [first] using both⟩
  | error e r' => simp [first] at both

namespace Takes

variable {depth : Nat} {bytes more : List UInt8} {a a' : α} {b : β}

theorem pure (depth : Nat) (a : α) : Takes (Pure.pure a) depth [] a :=
  fun _ _ => rfl

theorem bind {action : Read α} {next : α → Read β} (first : Takes action depth bytes a)
    (second : Takes (next a) depth more b) : Takes (action >>= next) depth (bytes ++ more) b := by
  intro r here
  rw [bind_ok (first r here.left) (second _ here.right)]
  simp

theorem followed {action : Read α} {next : α → Read β} (first : Takes action depth bytes a)
    (second : Takes (next a) depth [] b) : Takes (action >>= next) depth bytes b := by
  have both := first.bind second
  rwa [List.append_nil] at both

theorem map {action : Read α} (f : α → β) (first : Takes action depth bytes a) :
    Takes (do return f (← action)) depth bytes (f a) :=
  first.followed (pure depth (f a))

-- One action takes one run of bytes in one place.
theorem unique {action : Read α} {r : Reader} (first : Takes action depth bytes a)
    (second : Takes action depth more a') (here : r.At depth bytes) (there : r.At depth more) :
    bytes = more ∧ a = a' := by
  have same := (first r here).symm.trans (second r there)
  obtain ⟨value, state⟩ := EStateM.Result.ok.inj same
  exact ⟨here.unique there (Reader.advance_inj state), value⟩

theorem unique_front {action : Read α} {rest : List UInt8} (first : Takes action depth bytes a)
    (second : Takes action depth more a') (stand : bytes <+: rest) (stand' : more <+: rest) :
    bytes = more ∧ a = a' := by
  have whole := Reader.at_holding depth rest
  exact first.unique second ⟨whole.level, whole.inside, stand.trans whole.front⟩
    ⟨whole.level, whole.inside, stand'.trans whole.front⟩

theorem of_ensures {action : Read α} {post : List UInt8 → α → Prop}
    (takes : Takes action depth bytes a) (ensures : Ensures action depth post) : post bytes a := by
  -- Any buffer with the bytes will do, so one that holds nothing else.
  have here := Reader.at_holding depth bytes
  obtain ⟨bytes', here', same, holds⟩ := ensures _ a _ here.level here.inside (takes _ here)
  rwa [here.unique here' (Reader.advance_inj same)]

end Takes

namespace Ensures

variable {depth : Nat} {post : List UInt8 → α → Prop}

theorem pure {a : α} (holds : post [] a) : Ensures (Pure.pure a) depth post := by
  rintro r a' r' level inside success
  obtain ⟨rfl, rfl⟩ := EStateM.Result.ok.inj success
  exact ⟨[], ⟨level, inside, List.nil_prefix⟩, rfl, holds⟩

theorem throw (e : CodecError) : Ensures (MonadExcept.throw e : Read α) depth post := by
  intro r a r' _ _ success
  cases success

theorem weaken {action : Read α} {post' : List UInt8 → α → Prop} (ensures : Ensures action depth post)
    (weaker : ∀ bytes a, post bytes a → post' bytes a) : Ensures action depth post' := by
  intro r a r' level inside success
  obtain ⟨bytes, here, same, holds⟩ := ensures r a r' level inside success
  exact ⟨bytes, here, same, weaker bytes a holds⟩

theorem bind {action : Read α} {next : α → Read β} {post' : List UInt8 → β → Prop}
    (first : Ensures action depth post)
    (second : ∀ bytes a, post bytes a → Ensures (next a) depth fun more b => post' (bytes ++ more) b) :
    Ensures (action >>= next) depth post' := by
  intro r b r'' level inside success
  obtain ⟨a, r', success, success'⟩ := bind_eq_ok success
  obtain ⟨bytes, here, rfl, holds⟩ := first r a r' level inside success
  obtain ⟨more, there, rfl, holds'⟩ :=
    second bytes a holds (r.advance bytes.length) b r'' level here.room success'
  refine ⟨bytes ++ more, here.append there, ?_, holds'⟩
  simp

theorem map {action : Read α} {post' : List UInt8 → β → Prop} (f : α → β)
    (ensures : Ensures action depth post) (weaker : ∀ bytes a, post bytes a → post' bytes (f a)) :
    Ensures (do return f (← action)) depth post' := by
  refine ensures.bind fun bytes a holds => pure ?_
  simpa using weaker bytes a holds

theorem and {action : Read α} {post' : List UInt8 → α → Prop} (first : Ensures action depth post)
    (second : Ensures action depth post') : Ensures action depth fun bytes a =>
      post bytes a ∧ post' bytes a := by
  intro r a r' level inside success
  obtain ⟨bytes, here, same, holds⟩ := first r a r' level inside success
  obtain ⟨bytes', here', same', holds'⟩ := second r a r' level inside success
  obtain rfl := here.unique here' (Reader.advance_inj (same.symm.trans same'))
  exact ⟨bytes, here, same, holds, holds'⟩

end Ensures

namespace Confined

variable {least more : Nat}

theorem pure (a : α) : Confined 0 (Pure.pure a : Read α) :=
  fun depth => Ensures.pure ⟨Nat.le_refl 0, Takes.pure depth a⟩

theorem throw (least : Nat) (e : CodecError) : Confined least (MonadExcept.throw e : Read α) :=
  fun _ => Ensures.throw e

theorem weaken {action : Read α} (confined : Confined least action) (fewer : more ≤ least) :
    Confined more action :=
  fun depth => (confined depth).weaken fun _ _ h => ⟨Nat.le_trans fewer h.1, h.2⟩

theorem bind {action : Read α} {next : α → Read β} (first : Confined least action)
    (second : ∀ a, Confined more (next a)) : Confined (least + more) (action >>= next) := by
  intro depth
  refine (first depth).bind ?_
  rintro bytes a ⟨long, takes⟩
  refine (second a depth).weaken ?_
  rintro bytes' b ⟨long', takes'⟩
  refine ⟨?_, takes.bind takes'⟩
  rw [List.length_append]
  omega

theorem followed {action : Read α} {next : α → Read β} (first : Confined least action)
    (second : ∀ a, Confined 0 (next a)) : Confined least (action >>= next) :=
  first.bind second

theorem map {action : Read α} (f : α → β) (confined : Confined least action) :
    Confined least (do return f (← action)) :=
  confined.followed fun a => pure (f a)

theorem of_map {action : Read α} {f : α → β} {depth : Nat} {bytes : List UInt8} {b : β}
    (confined : Confined least action) (takes : Takes (do return f (← action)) depth bytes b) :
    ∃ a, b = f a ∧ Takes action depth bytes a := by
  have here := Reader.at_holding depth bytes
  obtain ⟨a, r', first, last⟩ := bind_eq_ok (takes _ here)
  obtain ⟨bytes', there, rfl, -, takes'⟩ := confined depth _ a r' here.level here.inside first
  obtain ⟨value, state⟩ := EStateM.Result.ok.inj last
  obtain rfl := here.unique there (Reader.advance_inj state).symm
  exact ⟨a, value.symm, takes'⟩

theorem taken {action : Read α} {r r' : Reader} {a : α} (confined : Confined least action)
    (inside : r.index ≤ r.data.size) (success : action r = .ok a r') :
    ∃ bytes, r.At r.depth bytes ∧ r' = r.advance bytes.length ∧ least ≤ bytes.length ∧
      Takes action r.depth bytes a :=
  confined r.depth r a r' rfl inside success

-- A success that does not end before a position ends there exactly if it needs no bytes behind it.
theorem exact_iff {action : Read α} {r r' : Reader} {a : α} {stop : Nat} (confined : Confined least action)
    (inside : r.index ≤ stop) (room : stop ≤ r.data.size) (success : action r = .ok a r')
    (past : stop ≤ r'.index) : r'.index = stop ↔ ∃ r'', action (r.cut stop) = .ok a r'' := by
  obtain ⟨bytes, here, rfl, -, takes⟩ := confined.taken (Nat.le_trans inside room) success
  rw [Reader.advance_index] at past ⊢
  constructor
  · intro exact
    exact ⟨_, takes _ ((Reader.at_cut_iff room).2 ⟨here, by omega⟩)⟩
  · rintro ⟨r'', success'⟩
    have inside' : (r.cut stop).index ≤ (r.cut stop).data.size := by
      rw [Reader.size_cut room]
      exact inside
    obtain ⟨bytes', there, -, -, takes'⟩ := confined.taken inside' success'
    -- Both runs of bytes stand at one place, so they are the same, and the second fits.
    obtain ⟨here', fits⟩ := (Reader.at_cut_iff room).1 there
    have same := (takes.unique takes' here here').1
    rw [← same] at fits
    omega

-- Where one action after the other takes bytes in front of which the first takes some, the second takes those that
-- are left.
theorem split {action : Read α} {next : α → Read β} {depth : Nat} {front rest bytes : List UInt8}
    {a : α} {b : β} (second : ∀ a, Confined 0 (next a)) (first : Takes action depth front a)
    (both : Takes (action >>= next) depth bytes b) (stand : bytes <+: front ++ rest) :
    ∃ payload, bytes = front ++ payload ∧ Takes (next a) depth payload b := by
  have whole := Reader.at_holding depth (front ++ rest)
  have here : (Reader.holding depth (front ++ rest)).At depth bytes :=
    ⟨whole.level, whole.inside, stand.trans whole.front⟩
  have success := both _ here
  rw [bind_of_ok (first _ whole.left)] at success
  obtain ⟨payload, there, same, -, takes⟩ := (second a).taken whole.left.room success
  rw [Reader.advance_advance] at same
  refine ⟨payload, here.unique (whole.left.append there) ?_, takes⟩
  rw [List.length_append]
  exact Reader.advance_inj same

end Confined

end Read

end Protogen.Wire
