import Protogen.Number.Integer

set_option autoImplicit false

namespace Protogen.Number

/-- A binary interchange format. A finite magnitude is `m * 2 ^ e` with `m < 2 ^ precision` and
`minExp ≤ e`; `infinity` is the bit pattern of the first magnitude that is not finite. -/
structure FloatFormat where
  precision : Nat
  minExp : Int
  infinity : Nat

def FloatFormat.single : FloatFormat := ⟨24, -149, 0x7F800000⟩
def FloatFormat.double : FloatFormat := ⟨53, -1074, 0x7FF0000000000000⟩

structure Dyadic where
  mantissa : Nat
  exponent : Int
  deriving DecidableEq

def Dyadic.fraction (d : Dyadic) : Nat × Nat :=
  if 0 ≤ d.exponent then (d.mantissa * Nat.pow 2 d.exponent.toNat, 1)
  else (d.mantissa, Nat.pow 2 (-d.exponent).toNat)

namespace FloatFormat

-- The bit pattern of the first magnitude that is not a number and raises no signal.
def quiet (f : FloatFormat) : Nat :=
  f.infinity + Nat.pow 2 (f.precision - 2)

-- The number that a finite bit pattern without its sign denotes.
def magnitude (f : FloatFormat) (bits : Nat) : Dyadic :=
  let unit := Nat.pow 2 (f.precision - 1)
  let field := bits / unit
  if field = 0 then ⟨bits, f.minExp⟩ else ⟨unit + bits % unit, f.minExp + (field - 1)⟩

private def scaleDown (num den : Nat) (e : Int) : Nat × Nat :=
  if 0 ≤ e then (num, den * Nat.pow 2 e.toNat) else (num * Nat.pow 2 (-e).toNat, den)

/-- The bit pattern of the magnitude nearest to `num / den`, halves to the even pattern. Past the
largest finite magnitude it is infinity. Within one exponent patterns grow with the mantissa by ones,
and a mantissa that rounds up to the next power of two gives the first pattern of the next exponent,
so one sum serves all of these cases. -/
def round (f : FloatFormat) (num den : Nat) : Nat :=
  if num = 0 then 0
  else
    let estimate : Int := (num.log2 : Int) - den.log2 - f.precision + 1
    let (n, d) := scaleDown num den estimate
    let exact := if n < d * Nat.pow 2 (f.precision - 1) then estimate - 1 else estimate
    let e := max exact f.minExp
    let (n, d) := scaleDown num den e
    let bits := (e - f.minExp).toNat * Nat.pow 2 (f.precision - 1) + roundHalfEven n d
    min bits f.infinity

end FloatFormat

structure Double where
  bits : UInt64
  deriving DecidableEq, Inhabited

structure Single where
  bits : UInt32
  deriving DecidableEq, Inhabited

namespace Double

def signBit : Nat := 9223372036854775808

-- The bit pattern without its sign.
def unsigned (x : Double) : Nat :=
  x.bits.toNat % signBit

def isNegative (x : Double) : Bool :=
  signBit ≤ x.bits.toNat

def isFinite (x : Double) : Bool :=
  x.unsigned < FloatFormat.double.infinity

def isInfinite (x : Double) : Bool :=
  x.unsigned == FloatFormat.double.infinity

def isNaN (x : Double) : Bool :=
  FloatFormat.double.infinity < x.unsigned

def isZero (x : Double) : Bool :=
  x.unsigned == 0

def ofParts (negative : Bool) (magnitude : Nat) : Double :=
  ⟨UInt64.ofNat (if negative then signBit + magnitude else magnitude)⟩

def zero : Double := ⟨0⟩
def nan (negative : Bool) : Double := ofParts negative FloatFormat.double.quiet
def infinity (negative : Bool) : Double := ofParts negative FloatFormat.double.infinity

def magnitude (x : Double) : Dyadic :=
  FloatFormat.double.magnitude x.unsigned

def ofFraction (negative : Bool) (num den : Nat) : Double :=
  ofParts negative (FloatFormat.double.round num den)

def toInt? (x : Double) : Option Int :=
  if x.isFinite then
    let (num, den) := x.magnitude.fraction
    if num % den = 0 then
      let n : Int := num / den
      some (if x.isNegative then -n else n)
    else none
  else none

end Double

namespace Single

def signBit : Nat := 2147483648

-- How many bits of a mantissa are lost from 64 bits to 32, as a power of two.
private def lostBits : Nat := Nat.pow 2 (FloatFormat.double.precision - FloatFormat.single.precision)

-- The same number in 64 bits. What is not a number stays so, but raises no signal any more.
def toDouble (x : Single) : Double :=
  let negative := decide (signBit ≤ x.bits.toNat)
  let unsigned := x.bits.toNat % signBit
  if FloatFormat.single.infinity < unsigned then
    let payload := (unsigned - FloatFormat.single.infinity) * lostBits
    Double.ofParts negative (FloatFormat.double.quiet ||| payload)
  else if unsigned = FloatFormat.single.infinity then Double.infinity negative
  else
    let (num, den) := (FloatFormat.single.magnitude unsigned).fraction
    Double.ofFraction negative num den

-- The nearest number in 32 bits. What is not a number keeps the bits that have room.
def ofDouble (x : Double) : Single :=
  let magnitude :=
    if x.isNaN then
      FloatFormat.single.quiet ||| (x.unsigned - FloatFormat.double.infinity) / lostBits
    else if x.isInfinite then FloatFormat.single.infinity
    else
      let (num, den) := x.magnitude.fraction
      FloatFormat.single.round num den
  ⟨UInt32.ofNat (if x.isNegative then signBit + magnitude else magnitude)⟩

end Single

end Protogen.Number
