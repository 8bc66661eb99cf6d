import Protogen.Proofs.Wire.Failing
import Protogen.Proofs.Wire.Grammar

set_option autoImplicit false

namespace Protogen.Wire

namespace WireType

theorem number_of_ofNumber? {n : Nat} {t : WireType} (found : ofNumber? n = some t) : n = t.number := by
  unfold ofNumber? at found
  split at found <;> cases found <;> rfl

end WireType

-- A group is fine up to an end tag that carries the number of another field.
mutual

/-- A group that is closed by the wrong end tag, or has such a group in it, with the field number that the
group is for and the one that was found. -/
inductive Mismatch : Nat → Nat → List UInt8 → Nat → Nat → Prop
  | group {levels tag expected found : Nat} {bytes : List UInt8}
      (type : tag % 8 = WireType.startGroup.number)
      (content : MismatchIn levels (tag / 8) bytes expected found) :
      Mismatch (levels + 1) tag bytes expected found

inductive MismatchIn : Nat → Nat → List UInt8 → Nat → Nat → Prop
  | stop {levels field n : Nat} {front : List UInt8} (number : Varint 0 front n)
      (type : n % 4294967296 % 8 = WireType.endGroup.number) (other : n % 4294967296 / 8 ≠ field) :
      MismatchIn levels field front field (n % 4294967296 / 8)
  | inner {levels field n expected found : Nat} {front bytes : List UInt8} (number : Varint 0 front n)
      (value : Mismatch levels (n % 4294967296) bytes expected found) :
      MismatchIn levels field (front ++ bytes) expected found
  | later {levels field n expected found : Nat} {front bytes more : List UInt8} (number : Varint 0 front n)
      (type : n % 4294967296 % 8 ≠ WireType.endGroup.number)
      (value : Value levels (n % 4294967296) bytes)
      (rest : MismatchIn levels field more expected found) :
      MismatchIn levels field (front ++ (bytes ++ more)) expected found

end

namespace Read

variable {depth : Nat}

theorem ensures_groups (depth position value fuel : Nat) (groups : position + fuel = 10) :
    Ensures (varintFrom position value fuel) depth fun bytes n =>
      ∃ m, Varint position bytes m ∧ n = value + m * 128 ^ position := by
  induction fuel generalizing position value with
  | zero => exact Ensures.throw _
  | succ fuel ih =>
    refine (ensures_byte depth).bind ?_
    rintro bytes b rfl
    split
    next => exact Ensures.throw _
    next fits =>
      have bit : position = 9 → b ≤ 1 := fun last => UInt8.not_lt.1 fun less => fits ⟨last, less⟩
      simp only [pow_seven]
      split
      next ends =>
        have small : b.toNat % 128 = b.toNat := by
          rw [UInt8.lt_iff_toNat_lt] at ends
          exact Nat.mod_eq_of_lt ends
        rw [small]
        exact Ensures.pure ⟨b.toNat, .last ends (by omega) bit, rfl⟩
      next goes =>
        have early : position < 9 := by
          rcases Nat.lt_or_ge position 9 with early | late
          · exact early
          · -- The tenth byte is at most 1, and so the last.
            have tenth : b ≤ 1 := bit (by omega)
            rw [UInt8.le_iff_toNat_le] at tenth
            rw [UInt8.lt_iff_toNat_lt] at goes
            exact absurd (Nat.lt_of_le_of_lt tenth (by decide)) goes
        refine (ih (position + 1) _ (by omega)).weaken ?_
        rintro bytes _ ⟨m, rest, rfl⟩
        refine ⟨_, .more goes early rest, ?_⟩
        ring

theorem ensures_number (depth : Nat) : Ensures varint depth fun bytes n => Varint 0 bytes n := by
  refine (ensures_groups depth 0 0 10 rfl).weaken ?_
  rintro bytes _ ⟨m, number, rfl⟩
  rwa [Nat.pow_zero, Nat.mul_one, Nat.zero_add]

theorem ensures_tag_of (depth : Nat) : Ensures tag depth fun bytes t =>
    ∃ n, Varint 0 bytes n ∧ t = n % 4294967296 :=
  (ensures_number depth).map _ fun _ n number => ⟨n, number, rfl⟩

theorem ensures_length_of (depth : Nat) : Ensures length depth fun bytes size =>
    ∃ n, Varint 0 bytes n ∧ size = n % 4294967296 := by
  intro r size r' level inside success
  obtain ⟨bytes, n, here, -, takes, rfl, rfl⟩ := length_eq_ok inside success
  rw [level] at here takes
  exact ⟨bytes, here, rfl, n, takes.of_ensures (ensures_number depth), rfl⟩

-- The levels that are left at a depth are those that groups may still open.
mutual

theorem ensures_value (fuel tag depth : Nat) : Ensures (skipWith fuel tag) depth fun bytes _ =>
    Value (recursionLimit - depth) tag bytes := by
  rw [skipWith.eq_def]
  split
  next found =>
    exact (ensures_number depth).map _ fun _ _ number =>
      .varint (WireType.number_of_ofNumber? found) number
  next found =>
    exact (ensures_slice depth 8).map _ fun _ _ taken =>
      .fixed64 (WireType.number_of_ofNumber? found) taken.1
  next found =>
    refine (ensures_length_of depth).bind ?_
    rintro front _ ⟨n, number, rfl⟩
    exact (ensures_slice depth _).map _ fun _ _ taken =>
      .delimited (WireType.number_of_ofNumber? found) number taken.1
  next found =>
    cases fuel with
    | zero => exact Ensures.throw _
    | succ fuel =>
      refine (ensures_content fuel (tag / 8) (depth + 1)).nested.weaken ?_
      rintro bytes _ ⟨shallow, content⟩
      have levels : recursionLimit - depth = recursionLimit - (depth + 1) + 1 := by omega
      rw [levels]
      exact .group (WireType.number_of_ofNumber? found) content
  next found =>
    exact (ensures_slice depth 4).map _ fun _ _ taken =>
      .fixed32 (WireType.number_of_ofNumber? found) taken.1
  next => exact Ensures.throw _

theorem ensures_content (fuel field depth : Nat) : Ensures (skipGroup fuel field) depth fun bytes _ =>
    Content (recursionLimit - depth) field bytes := by
  rw [skipGroup]
  refine (ensures_tag_of depth).bind ?_
  rintro front _ ⟨n, number, rfl⟩
  by_cases ends : n % 4294967296 % 8 = WireType.endGroup.number
  next =>
    by_cases own : n % 4294967296 / 8 = field
    next =>
      simp only [ends, own, if_true]
      refine Ensures.pure ?_
      rw [List.append_nil]
      exact .stop number ends own
    next =>
      simp only [ends, own, if_true, if_false]
      exact Ensures.throw _
  next =>
    simp only [ends, if_false]
    cases fuel with
    | zero => exact Ensures.throw _
    | succ fuel =>
      refine (ensures_value fuel (n % 4294967296) depth).bind fun bytes _ value => ?_
      exact (ensures_content fuel field depth).weaken fun more _ rest => .record number ends value rest

end

theorem start_of_mismatch {levels tag expected found : Nat} {bytes : List UInt8}
    (mismatch : Mismatch levels tag bytes expected found) : tag % 8 = WireType.startGroup.number := by
  cases mismatch with
  | group type => exact type

theorem length_mismatchIn_pos {levels field expected found : Nat} {bytes : List UInt8}
    (mismatch : MismatchIn levels field bytes expected found) : 0 < bytes.length := by
  cases mismatch with
  | stop number => exact length_number_pos number
  | inner number | later number =>
    have positive := length_number_pos number
    rw [List.length_append]
    omega

theorem length_mismatch_pos {levels tag expected found : Nat} {bytes : List UInt8}
    (mismatch : Mismatch levels tag bytes expected found) : 0 < bytes.length := by
  cases mismatch with
  | group type content => exact length_mismatchIn_pos content

mutual

theorem fails_value {levels tag expected found depth fuel : Nat} {bytes : List UInt8}
    (mismatch : Mismatch levels tag bytes expected found) (shallow : depth + levels ≤ recursionLimit)
    (enough : 2 * bytes.length ≤ fuel) :
    Fails (skipWith fuel tag) depth bytes (.groupMismatch expected found) := by
  cases mismatch with
  | @group levels _ _ _ _ type content =>
    have positive := length_mismatchIn_pos content
    cases fuel with
    | zero => omega
    | succ fuel =>
      rw [skipWith.eq_def, type]
      have inner : Fails (skipGroup fuel (tag / 8)) (depth + 1) bytes (.groupMismatch expected found) :=
        fails_content content (by omega) (by omega)
      exact inner.nested (by omega)

theorem fails_content {levels field expected found depth fuel : Nat} {bytes : List UInt8}
    (mismatch : MismatchIn levels field bytes expected found) (shallow : depth + levels ≤ recursionLimit)
    (enough : 2 * bytes.length ≤ fuel + 1) :
    Fails (skipGroup fuel field) depth bytes (.groupMismatch expected found) := by
  rw [skipGroup]
  cases mismatch with
  | @stop _ _ n _ number type other =>
    rw [← List.append_nil bytes]
    refine .after (takes_tag_of number) ?_
    simp only [type, other, if_true, if_false]
    exact .throw depth [] _
  | @inner _ _ n _ _ front bytes number value =>
    have positive := length_number_pos number
    have type := start_of_mismatch value
    rw [List.length_append] at enough
    refine .after (takes_tag_of number) ?_
    simp only [type, WireType.number, if_false, Nat.reduceEqDiff]
    cases fuel with
    | zero => omega
    | succ fuel => exact (fails_value value shallow (by omega)).bind _
  | @later _ _ n _ _ front bytes more number type value rest =>
    have positive := length_number_pos number
    simp only [List.length_append] at enough
    refine .after (takes_tag_of number) ?_
    simp only [type, if_false]
    cases fuel with
    | zero => omega
    | succ fuel =>
      exact .after (takes_value value shallow (by omega)) (fails_content rest shallow (by omega))

end

theorem inside_of_varint {r r' : Reader} {n : Nat} (success : varint r = .ok n r') : r.index < r.data.size := by
  obtain ⟨b, r₁, first, -⟩ := bind_eq_ok success
  unfold byte at first
  split at first
  next inside => exact inside
  next => cases first

theorem inside_of_slice {n : Nat} {b : ByteArray} {r r' : Reader} (success : slice n r = .ok b r') :
    r.index ≤ r.data.size := by
  unfold slice at success
  split at success
  next room => exact Nat.le_trans (Nat.le_add_right ..) room
  next => cases success

theorem inside_of_tag {t : Nat} {r r' : Reader} (success : tag r = .ok t r') : r.index < r.data.size := by
  obtain ⟨n, r₁, first, -⟩ := bind_eq_ok success
  exact inside_of_varint first

theorem of_nested {α : Type} {action : Read α} {a : α} {r r' : Reader} (success : nested action r = .ok a r') :
    ∃ r₁, action { r with depth := r.depth + 1 } = .ok a r₁ := by
  simp only [nested] at success
  split at success
  next => cases success
  next =>
    split at success
    next inner =>
      cases success
      exact ⟨_, inner⟩
    next => cases success

theorem inside_of_skipWith {fuel tag : Nat} {r r' : Reader} (success : skipWith fuel tag r = .ok () r') :
    r.index ≤ r.data.size := by
  cases type : WireType.ofNumber? (tag % 8) with
  | none =>
    rw [skipWith.eq_def, type] at success
    cases success
  | some wireType =>
    rw [skipWith.eq_def, type] at success
    cases wireType with
    | varint =>
      obtain ⟨_, _, first, -⟩ := bind_eq_ok success
      exact Nat.le_of_lt (inside_of_varint first)
    | fixed64 | fixed32 =>
      obtain ⟨_, _, first, -⟩ := bind_eq_ok success
      exact inside_of_slice first
    | delimited =>
      obtain ⟨_, _, first, -⟩ := bind_eq_ok success
      exact inside_of_length first
    | endGroup => cases success
    | startGroup =>
      cases fuel with
      | zero => cases success
      | succ fuel =>
        obtain ⟨_, inner⟩ := of_nested success
        rw [skipGroup] at inner
        obtain ⟨_, _, first, -⟩ := bind_eq_ok inner
        have inside := inside_of_tag first
        exact Nat.le_of_lt inside

theorem left_of_tag {t : Nat} {r r' : Reader} (success : tag r = .ok t r') :
    r'.data.size - r'.index + 1 ≤ r.data.size - r.index := by
  obtain ⟨bytes, here, rfl, long, -⟩ := confined_tag.taken (Nat.le_of_lt (inside_of_tag success)) success
  have room := here.room
  rw [Reader.advance_data, Reader.advance_index]
  omega

theorem left_of_skipWith {fuel tag : Nat} {r r' : Reader} (success : skipWith fuel tag r = .ok () r') :
    r'.data.size - r'.index ≤ r.data.size - r.index := by
  obtain ⟨bytes, -, rfl, -⟩ := ensures_value fuel tag r.depth r () r' rfl (inside_of_skipWith success) success
  rw [Reader.advance_data, Reader.advance_index]
  omega

theorem bind_congr_at {α β : Type} {action action' : Read α} {next next' : α → Read β} {r : Reader}
    (first : action r = action' r) (second : ∀ a r', action r = .ok a r' → next a r' = next' a r') :
    (action >>= next) r = (action' >>= next') r := by
  change EStateM.bind action next r = EStateM.bind action' next' r
  simp only [EStateM.bind, ← first]
  cases result : action r with
  | ok a r' => exact second a r' result
  | error e r' => rfl

theorem nested_congr {α : Type} {action action' : Read α} {r : Reader}
    (inner : action { r with depth := r.depth + 1 } = action' { r with depth := r.depth + 1 }) :
    nested action r = nested action' r := by
  simp only [nested, inner]

-- A step into a group costs a unit of fuel, and a step on in one as well, but that comes after a byte.
mutual

theorem skipWith_enough (fuel fuel' tag : Nat) {r : Reader} (enough : 2 * (r.data.size - r.index) + 2 ≤ fuel)
    (enough' : 2 * (r.data.size - r.index) + 2 ≤ fuel') : skipWith fuel tag r = skipWith fuel' tag r := by
  cases fuel with
  | zero => omega
  | succ fuel =>
    cases fuel' with
    | zero => omega
    | succ fuel' =>
      rw [skipWith.eq_def, skipWith.eq_def]
      cases WireType.ofNumber? (tag % 8) with
      | none => rfl
      | some wireType =>
        cases wireType with
        | startGroup =>
          have later : 2 * (r.data.size - r.index) + 1 ≤ fuel ∧ 2 * (r.data.size - r.index) + 1 ≤ fuel' := by omega
          exact nested_congr (skipGroup_enough fuel fuel' (tag / 8) later.1 later.2)
        | varint | fixed64 | delimited | endGroup | fixed32 => rfl

theorem skipGroup_enough (fuel fuel' field : Nat) {r : Reader} (enough : 2 * (r.data.size - r.index) + 1 ≤ fuel)
    (enough' : 2 * (r.data.size - r.index) + 1 ≤ fuel') : skipGroup fuel field r = skipGroup fuel' field r := by
  cases fuel with
  | zero => omega
  | succ fuel =>
    cases fuel' with
    | zero => omega
    | succ fuel' =>
      rw [skipGroup, skipGroup]
      refine bind_congr_at rfl fun t r₁ first => ?_
      have fewer := left_of_tag first
      by_cases ends : t % 8 = WireType.endGroup.number
      next => simp only [ends, if_true]
      next =>
        simp only [ends, if_false]
        refine bind_congr_at (skipWith_enough fuel fuel' t (by omega) (by omega)) fun _ r₂ second => ?_
        have fewer' := left_of_skipWith second
        exact skipGroup_enough fuel fuel' field (by omega) (by omega)

end

theorem length_value_pos {levels tag : Nat} {bytes : List UInt8} (value : Value levels tag bytes) :
    0 < bytes.length := by
  cases value with
  | varint type number => exact length_number_pos number
  | fixed64 type size | fixed32 type size => omega
  | delimited type number size =>
    have positive := length_number_pos number
    rw [List.length_append]
    omega
  | group type content => exact length_content_pos content

theorem inside_of_front {bytes : List UInt8} {r : Reader} (positive : 0 < bytes.length)
    (front : bytes <+: r.remaining) : r.index ≤ r.data.size := by
  have short := front.length_le
  rw [Reader.length_remaining] at short
  omega

/-- Stepping over a value succeeds exactly where one stands that nests no deeper than the levels left, and takes
that value and nothing else. Where a group is closed by the end tag of another field, this is the error. Fuel
beyond what the bytes can use up makes no difference, so that the fuel that is given is never too little. -/
theorem skip_iff (r : Reader) (tag : Nat) (shallow : r.depth ≤ recursionLimit) :
    (∀ r', skip tag r = .ok () r' ↔ ∃ bytes, bytes <+: r.remaining ∧
      Value (recursionLimit - r.depth) tag bytes ∧ r' = r.advance bytes.length) ∧
    (∀ bytes expected found, bytes <+: r.remaining →
      Mismatch (recursionLimit - r.depth) tag bytes expected found →
      ∃ r', skip tag r = .error (.groupMismatch expected found) r') ∧
    ∀ fuel, 2 * (r.data.size - r.index) + 2 ≤ fuel → skipWith fuel tag r = skip tag r := by
  have levels : r.depth + (recursionLimit - r.depth) ≤ recursionLimit := by omega
  refine ⟨fun r' => ⟨fun success => ?_, ?_⟩, fun bytes expected found front mismatch => ?_, fun fuel enough => ?_⟩
  · obtain ⟨bytes, here, same, value⟩ :=
      ensures_value _ tag r.depth r () r' rfl (inside_of_skipWith success) success
    exact ⟨bytes, here.front, value, same⟩
  · rintro ⟨bytes, front, value, rfl⟩
    exact takes_skip value levels r ⟨rfl, inside_of_front (length_value_pos value) front, front⟩
  · have here : r.At r.depth bytes := ⟨rfl, inside_of_front (length_mismatch_pos mismatch) front, front⟩
    have room := here.room
    exact fails_value mismatch levels (by omega) r here
  · exact skipWith_enough fuel _ tag enough (Nat.le_refl _)

-- A group with one value in it, which ends the group 3 and not the group 2.
theorem skip_iff_group :
    (Reader.ofBytes ⟨#[0x08, 0x01, 0x1C]⟩).depth ≤ recursionLimit ∧
      skip 27 (.ofBytes ⟨#[0x08, 0x01, 0x1C]⟩) = .ok () ((Reader.ofBytes ⟨#[0x08, 0x01, 0x1C]⟩).advance 3) ∧
      ∃ r', skip 19 (.ofBytes ⟨#[0x08, 0x01, 0x1C]⟩) = .error (.groupMismatch 2 3) r' := by
  have tag : Varint 0 [0x08] 8 := .last (by decide) (by decide) (by decide)
  have one : Varint 0 [0x01] 1 := .last (by decide) (by decide) (by decide)
  have stop : Varint 0 [0x1C] 28 := .last (by decide) (by decide) (by decide)
  have inner : Value 99 (8 % 4294967296) [0x01] := .varint rfl one
  have value : Value 100 27 [0x08, 0x01, 0x1C] := .group rfl (.record tag (by decide) inner (.stop stop rfl rfl))
  have mismatch : Mismatch 100 19 [0x08, 0x01, 0x1C] 2 3 :=
    .group rfl (.later tag (by decide) inner (.stop stop rfl (by decide)))
  have front : [0x08, 0x01, 0x1C] <+: (Reader.ofBytes ⟨#[0x08, 0x01, 0x1C]⟩).remaining := List.prefix_rfl
  have shallow : (Reader.ofBytes ⟨#[0x08, 0x01, 0x1C]⟩).depth ≤ recursionLimit := by decide
  exact ⟨shallow, ((skip_iff _ 27 shallow).1 _).2 ⟨_, front, value, rfl⟩,
    (skip_iff _ 19 shallow).2.1 _ 2 3 front mismatch⟩

end Read

end Protogen.Wire
