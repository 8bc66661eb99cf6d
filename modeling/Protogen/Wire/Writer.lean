import Protogen.Number.Float

set_option autoImplicit false

namespace Protogen.Wire

open Number (Double Single)

-- The shortest number in base 128, the lowest group first; every byte but the last has its high bit set.
def varintBytes (n : Nat) : List UInt8 :=
  if h : n < 128 then [UInt8.ofNat n]
  else UInt8.ofNat (n % 128 + 128) :: varintBytes (n / 128)

def littleEndianBytes (k : Nat) (n : Nat) : List UInt8 :=
  match k with
  | 0 => []
  | k + 1 => UInt8.ofNat (n % 256) :: littleEndianBytes k (n / 256)

-- Counts signed numbers off in the order 0, -1, 1, -2, 2, …
def zigzag (i : Int) : Nat :=
  if 0 ≤ i then 2 * i.toNat else 2 * (-i).toNat - 1

-- The bytes of each kind of value.

namespace Bytes

def uint32 (n : UInt32) : List UInt8 :=
  varintBytes n.toNat

def uint64 (n : UInt64) : List UInt8 :=
  varintBytes n.toNat

-- A negative number takes its sign through 64 bits.
def int32 (i : Int32) : List UInt8 :=
  varintBytes i.toInt64.toUInt64.toNat

def int64 (i : Int64) : List UInt8 :=
  varintBytes i.toUInt64.toNat

def sint32 (i : Int32) : List UInt8 :=
  varintBytes (zigzag i.toInt)

def sint64 (i : Int64) : List UInt8 :=
  varintBytes (zigzag i.toInt)

def bool (b : Bool) : List UInt8 :=
  varintBytes b.toNat

def fixed32 (n : UInt32) : List UInt8 :=
  littleEndianBytes 4 n.toNat

def fixed64 (n : UInt64) : List UInt8 :=
  littleEndianBytes 8 n.toNat

def sfixed32 (i : Int32) : List UInt8 :=
  fixed32 i.toUInt32

def sfixed64 (i : Int64) : List UInt8 :=
  fixed64 i.toUInt64

def single (x : Single) : List UInt8 :=
  fixed32 x.bits

def double (x : Double) : List UInt8 :=
  fixed64 x.bits

def delimited (b : List UInt8) : List UInt8 :=
  varintBytes b.length ++ b

def bytes (b : ByteArray) : List UInt8 :=
  delimited b.data.toList

def string (s : String) : List UInt8 :=
  bytes s.toUTF8

end Bytes

/-- Bytes written so far, and where each open child began, the innermost first. -/
structure Writer where
  data : ByteArray := ByteArray.empty
  forks : List Nat := []

namespace Writer

def empty : Writer := {}

def push (w : Writer) (bytes : List UInt8) : Writer :=
  { w with data := bytes.foldl ByteArray.push w.data }

def varint (w : Writer) (n : Nat) : Writer :=
  w.push (varintBytes n)

def uint32 (w : Writer) (a : UInt32) : Writer :=
  w.push (Bytes.uint32 a)

def uint64 (w : Writer) (a : UInt64) : Writer :=
  w.push (Bytes.uint64 a)

def int32 (w : Writer) (a : Int32) : Writer :=
  w.push (Bytes.int32 a)

def int64 (w : Writer) (a : Int64) : Writer :=
  w.push (Bytes.int64 a)

def sint32 (w : Writer) (a : Int32) : Writer :=
  w.push (Bytes.sint32 a)

def sint64 (w : Writer) (a : Int64) : Writer :=
  w.push (Bytes.sint64 a)

def bool (w : Writer) (a : Bool) : Writer :=
  w.push (Bytes.bool a)

def fixed32 (w : Writer) (a : UInt32) : Writer :=
  w.push (Bytes.fixed32 a)

def fixed64 (w : Writer) (a : UInt64) : Writer :=
  w.push (Bytes.fixed64 a)

def sfixed32 (w : Writer) (a : Int32) : Writer :=
  w.push (Bytes.sfixed32 a)

def sfixed64 (w : Writer) (a : Int64) : Writer :=
  w.push (Bytes.sfixed64 a)

def single (w : Writer) (a : Single) : Writer :=
  w.push (Bytes.single a)

def double (w : Writer) (a : Double) : Writer :=
  w.push (Bytes.double a)

-- Appends bytes that are written already.
def append (w : Writer) (b : ByteArray) : Writer :=
  { w with data := w.data ++ b }

def bytes (w : Writer) (b : ByteArray) : Writer :=
  (w.varint b.size).append b

def string (w : Writer) (s : String) : Writer :=
  w.bytes s.toUTF8

-- Begins a child at the end of what is written.
def fork (w : Writer) : Writer :=
  { w with forks := w.data.size :: w.forks }

/-- Completes the innermost open child: its length goes in front of it. Children opened earlier begin
further to the front, so their places stay right. Without an open child nothing happens. -/
def join (w : Writer) : Writer :=
  match w.forks with
  | [] => w
  | start :: forks =>
    let child := w.data.extract start w.data.size
    let front : Writer := { data := w.data.extract 0 start, forks := forks }
    front.bytes child

end Writer

end Protogen.Wire
