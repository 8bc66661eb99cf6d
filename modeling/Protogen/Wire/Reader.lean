import Protogen.Codec.Error
import Protogen.Number.Float

set_option autoImplicit false

namespace Protogen.Wire

open Number (Double Single)

-- The deepest nesting of messages and groups that is followed.
def recursionLimit : Nat := 100

inductive WireType where
  | varint
  | fixed64
  | delimited
  | startGroup
  | endGroup
  | fixed32
  deriving DecidableEq, Inhabited

namespace WireType

def number : WireType → Nat
  | varint => 0
  | fixed64 => 1
  | delimited => 2
  | startGroup => 3
  | endGroup => 4
  | fixed32 => 5

def ofNumber? : Nat → Option WireType
  | 0 => some varint
  | 1 => some fixed64
  | 2 => some delimited
  | 3 => some startGroup
  | 4 => some endGroup
  | 5 => some fixed32
  | _ => none

end WireType

/-- A position in a buffer, and how many messages and groups are open there. -/
structure Reader where
  data : ByteArray
  index : Nat := 0
  depth : Nat := 0

/-- An action on a reader. The reader moves on also where the action fails. -/
abbrev Read (α : Type) : Type := EStateM CodecError Reader α

namespace Reader

def remaining (r : Reader) : List UInt8 :=
  r.data.data.toList.drop r.index

def ofBytes (data : ByteArray) : Reader :=
  { data := data }

end Reader

namespace Read

def byte : Read UInt8 := fun r =>
  if h : r.index < r.data.size then .ok r.data[r.index] { r with index := r.index + 1 }
  else .error .truncated r

def slice (n : Nat) : Read ByteArray := fun r =>
  if r.index + n ≤ r.data.size then
    .ok (r.data.extract r.index (r.index + n)) { r with index := r.index + n }
  else .error .truncated r

-- The position after `length` more bytes; without a length, the end of the buffer.
def endOf (length : Option Nat) : Read Nat := fun r =>
  match length with
  | none => .ok r.data.size r
  | some n =>
    if r.index + n ≤ r.data.size then .ok (r.index + n) r else .error (.lengthOverflow n) r

def index : Read Nat := fun r =>
  .ok r.index r

-- The groups of a varint from the one at bit `7 * position` on; ten groups hold 64 bits, the last of them one bit.
def varintFrom (position : Nat) (value : Nat) : Nat → Read Nat
  | 0 => throw .invalidVarint
  | n + 1 => do
    let b ← byte
    if position = 9 ∧ 1 < b then throw .invalidVarint
    else
      let value := value + (b.toNat % 128) * Nat.pow 2 (7 * position)
      if b < 128 then pure value else varintFrom (position + 1) value n

-- A number in base 128, the lowest group first, of at most ten groups and 64 bits.
def varint : Read Nat :=
  varintFrom 0 0 10

def uint64 : Read UInt64 := do
  return UInt64.ofNat (← varint)

-- Bits past the lowest 32 are dropped.
def uint32 : Read UInt32 := do
  return UInt32.ofNat (← varint)

-- A negative number is written with its sign in 64 bits; the lowest 32 are enough to recover it.
def int32 : Read Int32 := do
  return Int32.ofNat (← varint)

def int64 : Read Int64 := do
  return Int64.ofNat (← varint)

-- Undoes the order 0, -1, 1, -2, 2, … in which signed numbers are counted off.
def unzigzag (n : Nat) : Int :=
  if n % 2 = 0 then (n / 2 : Nat) else -((n / 2 : Nat) : Int) - 1

def sint32 : Read Int32 := do
  return Int32.ofInt (unzigzag ((← varint) % 4294967296))

def sint64 : Read Int64 := do
  return Int64.ofInt (unzigzag (← varint))

def bool : Read Bool := do
  return (← varint) != 0

def littleEndian (bytes : List UInt8) : Nat :=
  bytes.foldr (fun b n => b.toNat + 256 * n) 0

def fixed (n : Nat) : Read Nat := do
  return littleEndian (← slice n).data.toList

def fixed32 : Read UInt32 := do
  return UInt32.ofNat (← fixed 4)

def fixed64 : Read UInt64 := do
  return UInt64.ofNat (← fixed 8)

def sfixed32 : Read Int32 := do
  return Int32.ofNat (← fixed 4)

def sfixed64 : Read Int64 := do
  return Int64.ofNat (← fixed 8)

def single : Read Single := do
  return ⟨← fixed32⟩

def double : Read Double := do
  return ⟨← fixed64⟩

def tag : Read Nat := do
  return (← varint) % 4294967296

def length : Read Nat := do
  let n := (← varint) % 4294967296
  let _ ← endOf (some n)
  return n

def bytes : Read ByteArray := do
  slice (← length)

def string : Read String := do
  match String.fromUTF8? (← bytes) with
  | some s => return s
  | none => throw .invalidUtf8

/-- Runs an action one level deeper. The level is left again whether the action fails or not. -/
def nested {α : Type} (action : Read α) : Read α := fun r =>
  if recursionLimit ≤ r.depth then .error (.recursionLimit recursionLimit) r
  else
    match action { r with depth := r.depth + 1 } with
    | .ok a r => .ok a { r with depth := r.depth - 1 }
    | .error e r => .error e { r with depth := r.depth - 1 }

def message {α : Type} (decode : Option Nat → Read α) : Read α := do
  let n ← length
  nested (decode (some n))

-- Repeats an action as long as the position is before `stop`, at most `fuel` times.
def whileBefore {σ : Type} (stop : Nat) (action : σ → Read σ) : Nat → σ → Read σ
  | 0, s => pure s
  | fuel + 1, s => do
    if (← index) < stop then whileBefore stop action fuel (← action s)
    else pure s

-- Repeats an action that takes at least a byte as long as the position is before `stop`.
def repeatTo {σ : Type} (stop : Nat) (start : σ) (action : σ → Read σ) : Read σ := fun r =>
  whileBefore stop action (r.data.size - r.index) start r

-- Stepping over a value that no field claims. A group ends at the end tag of its own field number.

mutual

-- Steps over the value of a tag. Each group takes a unit of fuel for every tag in it.
def skipWith (fuel : Nat) (tag : Nat) : Read Unit :=
  match WireType.ofNumber? (tag % 8) with
  | some .varint => do let _ ← varint
  | some .fixed64 => do let _ ← slice 8
  | some .delimited => do let _ ← slice (← length)
  | some .startGroup =>
    match fuel with
    | 0 => throw .truncated
    | fuel + 1 => nested (skipGroup fuel (tag / 8))
  | some .fixed32 => do let _ ← slice 4
  | _ => throw (.invalidWireType (tag % 8))

def skipGroup (fuel : Nat) (field : Nat) : Read Unit := do
  let tag ← tag
  if tag % 8 = WireType.endGroup.number then
    if tag / 8 = field then pure () else throw (.groupMismatch field (tag / 8))
  else
    match fuel with
    | 0 => throw .truncated
    | fuel + 1 => do
      skipWith fuel tag
      skipGroup fuel field

end

/-- Steps over the value of a tag that has just been read. Every step into a group or on to the next
tag of one has a byte of its own, so the bytes that remain are fuel enough. -/
def skip (tag : Nat) : Read Unit := fun r =>
  skipWith (2 * (r.data.size - r.index) + 2) tag r

end Read

end Protogen.Wire
