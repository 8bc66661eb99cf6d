import Protogen.Number.Float

set_option autoImplicit false

namespace Protogen.Number

structure Decimal where
  digits : Nat
  exponent : Int
  deriving DecidableEq

namespace Decimal

def fraction (d : Decimal) : Nat × Nat :=
  if 0 ≤ d.exponent then (d.digits * Nat.pow 10 d.exponent.toNat, 1)
  else (d.digits, Nat.pow 10 (-d.exponent).toNat)

-- Whether every number of this order of magnitude is too large, or too small, for 64 bits. It keeps the powers of
-- ten in `toDouble` small.
private def order (d : Decimal) : Int :=
  (natText d.digits).length + d.exponent

def toDouble (negative : Bool) (d : Decimal) : Double :=
  if d.digits = 0 || d.order < -330 then Double.ofParts negative 0
  else if 330 < d.order then Double.infinity negative
  else Double.ofFraction negative d.fraction.1 d.fraction.2

end Decimal

/-- The positive real numbers that round to one floating-point number, as numerators over one
denominator: the number itself, the two ends, and whether the ends belong to it. -/
structure RoundingInterval where
  low : Nat
  mid : Nat
  high : Nat
  den : Nat
  closed : Bool

namespace RoundingInterval

-- The interval around a finite positive number. Its neighbours are one unit of the mantissa away, but the lower
-- neighbour of a power of two, the first of them apart, only half a unit.
def ofBits (f : FloatFormat) (bits : Nat) : RoundingInterval :=
  let d := f.magnitude bits
  let unit := Nat.pow 2 (f.precision - 1)
  let below := if bits % unit = 0 && unit < bits then 1 else 2
  let (scale, den) := (Dyadic.mk 1 d.exponent).fraction
  ⟨(4 * d.mantissa - below) * scale, 4 * d.mantissa * scale, (4 * d.mantissa + 2) * scale, 4 * den,
    bits % 2 == 0⟩

def contains (i : RoundingInterval) (d : Decimal) : Bool :=
  let (num, den) := d.fraction
  let x := num * i.den
  if i.closed then i.low * den ≤ x && x ≤ i.high * den
  else i.low * den < x && x < i.high * den

-- The exponent of the leading decimal digit of the number in the middle, which must exceed `10 ^ -400`.
def order (i : RoundingInterval) : Int :=
  ((natText (i.mid * Nat.pow 10 400 / i.den)).length : Int) - 401

def below (i : RoundingInterval) (k : Int) : Decimal :=
  let n := if 0 ≤ k then i.mid / (i.den * Nat.pow 10 k.toNat) else i.mid * Nat.pow 10 (-k).toNat / i.den
  ⟨n, k⟩

-- Whether the number in the middle lies past the midpoint of `d` and the next multiple, or on it where `d` is odd.
private def nearerNext (i : RoundingInterval) (d : Decimal) : Bool :=
  let (num, den) := (Decimal.mk (2 * d.digits + 1) d.exponent).fraction
  let x := 2 * i.mid * den
  let y := num * i.den
  y < x || (y == x && d.digits % 2 == 1)

-- A decimal of the interval among the two multiples of `10 ^ k` next to its middle, the nearer one first.
def onGrid? (i : RoundingInterval) (k : Int) : Option Decimal :=
  let d := i.below k
  let e : Decimal := ⟨d.digits + 1, k⟩
  match i.contains d, i.contains e with
  | true, true => some (if i.nearerNext d then e else d)
  | true, false => some d
  | false, true => some e
  | false, false => none

end RoundingInterval

-- Moves zeros at the end of the digits into the exponent.
private def dropZeros : Nat → Decimal → Decimal
  | 0, d => d
  | fuel + 1, d =>
    if d.digits ≠ 0 ∧ d.digits % 10 = 0 then dropZeros fuel ⟨d.digits / 10, d.exponent + 1⟩ else d

/-- The fewest digits that read back as the number, which is finite and not zero; of those the
nearest. Seventeen digits always suffice. -/
def Double.shortest (x : Double) : Decimal :=
  let i := RoundingInterval.ofBits FloatFormat.double x.unsigned
  let e := i.order
  let found := (List.range 17).findSome? fun n : Nat => i.onGrid? (e - n)
  dropZeros 20 (found.getD (i.below (e - 16)))

-- Where positional notation ends: the least and the greatest exponent of the leading digit that it is used for.
structure DecimalLayout where
  least : Int
  greatest : Int

-- Numbers are positional, always with a point, from `0.00001` to below `10 ^ 16`.
def DecimalLayout.json : DecimalLayout := ⟨-5, 15⟩

-- Positional digits with a point, or scientific notation with a signed exponent.
def DecimalLayout.write (layout : DecimalLayout) (d : Decimal) : List Char :=
  let ds := natText d.digits
  let lead := d.exponent + ds.length - 1
  if layout.least ≤ lead ∧ lead ≤ layout.greatest then
    if 0 ≤ d.exponent then
      ds ++ List.replicate d.exponent.toNat '0' ++ ['.', '0']
    else if 0 ≤ lead then
      let whole := (lead + 1).toNat
      ds.take whole ++ '.' :: ds.drop whole
    else
      '0' :: '.' :: List.replicate (-lead - 1).toNat '0' ++ ds
  else
    let fraction := if ds.length = 1 then [] else '.' :: ds.drop 1
    let sign := if lead < 0 then '-' else '+'
    ds.take 1 ++ fraction ++ 'e' :: sign :: natText lead.natAbs

def Double.text (layout : DecimalLayout) (x : Double) : List Char :=
  let magnitude := if x.isZero then ['0', '.', '0'] else layout.write x.shortest
  if x.isNegative then '-' :: magnitude else magnitude

-- Digits, an optional fraction and an optional exponent, with at least one digit before or after the point.
private def readUnsigned? (cs : List Char) : Option Decimal :=
  let whole := cs.takeWhile isDigit
  let rest := cs.dropWhile isDigit
  let (fraction, rest) :=
    match rest with
    | '.' :: r => (r.takeWhile isDigit, r.dropWhile isDigit)
    | r => ([], r)
  if whole.isEmpty && fraction.isEmpty then none
  else
    let mantissa := ofDigits (whole ++ fraction)
    let shift : Int := fraction.length
    match rest with
    | [] => some ⟨mantissa, -shift⟩
    | c :: r => if c = 'e' ∨ c = 'E' then (readInt? r).map fun e => ⟨mantissa, e - shift⟩ else none

-- Reads a decimal, or the name of infinity or of no number in any case, after an optional sign. The sign counts for
-- each of them.
def Double.read? (cs : List Char) : Option Double :=
  let (negative, rest) :=
    match cs with
    | '-' :: r => (true, r)
    | '+' :: r => (false, r)
    | r => (false, r)
  let name := String.ofList (rest.map Char.toLower)
  if name = "inf" ∨ name = "infinity" then some (Double.infinity negative)
  else if name = "nan" then some (Double.nan negative)
  else (readUnsigned? rest).map (Decimal.toDouble negative)

end Protogen.Number
