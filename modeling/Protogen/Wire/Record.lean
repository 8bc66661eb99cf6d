import Protogen.Wire.Reader

set_option autoImplicit false

namespace Protogen.Wire

inductive Payload where
  | varint (n : Nat)
  | fixed64
  | delimited (bytes : List UInt8)
  -- A group, with the height of the highest value in it.
  | group (inner : Nat)
  | fixed32

-- How many levels a value needs.
def Payload.height : Payload → Nat
  | group inner => inner + 1
  | _ => 1

structure Record where
  number : Nat
  payload : Payload

namespace Record

def takeVarintFrom (position value : Nat) : List UInt8 → Option (Nat × List UInt8)
  | [] => none
  | b :: bs =>
    if position = 9 ∧ 1 < b then none
    else
      let value := value + (b.toNat % 128) * Nat.pow 2 (7 * position)
      if b < 128 then some (value, bs) else takeVarintFrom (position + 1) value bs

def takeVarint (bs : List UInt8) : Option (Nat × List UInt8) :=
  takeVarintFrom 0 0 bs

def takeBytes (n : Nat) (bs : List UInt8) : Option (List UInt8 × List UInt8) :=
  let front := bs.take n
  if front.length = n then some (front, bs.drop n) else none

def takeTag (bs : List UInt8) : Option (Nat × WireType × List UInt8) := do
  let (tag, bs) ← takeVarint bs
  let wireType ← WireType.ofNumber? (tag % 8)
  if tag < 4294967296 ∧ 8 ≤ tag then some (tag / 8, wireType, bs) else none

mutual

def takePayload (fuel number : Nat) (wireType : WireType) (bs : List UInt8) :
    Option (Payload × List UInt8) :=
  match wireType with
  | .varint => do
    let (n, bs) ← takeVarint bs
    return (.varint n, bs)
  | .fixed64 => do
    let (_, bs) ← takeBytes 8 bs
    return (.fixed64, bs)
  | .delimited => do
    let (n, bs) ← takeVarint bs
    let (front, bs) ← takeBytes n bs
    return (.delimited front, bs)
  | .startGroup =>
    match fuel with
    | 0 => none
    | fuel + 1 => do
      let (inner, bs) ← takeGroup fuel number bs
      return (.group inner, bs)
  | .endGroup => none
  | .fixed32 => do
    let (_, bs) ← takeBytes 4 bs
    return (.fixed32, bs)

def takeGroup (fuel number : Nat) (bs : List UInt8) : Option (Nat × List UInt8) := do
  let (n, wireType, bs) ← takeTag bs
  if wireType = .endGroup then
    if n = number then some (0, bs) else none
  else
    match fuel with
    | 0 => none
    | fuel + 1 => do
      let (value, bs) ← takePayload fuel n wireType bs
      let (inner, bs) ← takeGroup fuel number bs
      return (max value.height inner, bs)

end

-- The records of bytes, `fuel` of them at most; `groupFuel` is for the groups of each.
private def allFrom (groupFuel : Nat) : Nat → List UInt8 → Option (List Record)
  | _, [] => some []
  | 0, _ => none
  | fuel + 1, bs => do
    let (number, wireType, bs) ← takeTag bs
    let (payload, bs) ← takePayload groupFuel number wireType bs
    return ⟨number, payload⟩ :: (← allFrom groupFuel fuel bs)

-- The records that bytes are made of. Each record takes a byte at least, and so does each step into a group and
-- each step on in one.
def all (bs : List UInt8) : Option (List Record) :=
  let n := bs.length
  allFrom (2 * n) n bs

def varints (bs : List UInt8) : Option (List Nat) :=
  go bs.length bs
where
  go : Nat → List UInt8 → Option (List Nat)
    | _, [] => some []
    | 0, _ => none
    | fuel + 1, bs => do
      let (n, bs) ← takeVarint bs
      return n :: (← go fuel bs)

end Record

end Protogen.Wire
