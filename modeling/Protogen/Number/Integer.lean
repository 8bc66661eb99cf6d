set_option autoImplicit false

namespace Protogen.Number

def isDigit (c : Char) : Bool :=
  '0' ≤ c && c ≤ '9'

def digitValue (c : Char) : Nat :=
  c.toNat - '0'.toNat

def ofDigits (cs : List Char) : Nat :=
  cs.foldl (fun n c => 10 * n + digitValue c) 0

def natText (n : Nat) : List Char :=
  Nat.toDigits 10 n

def intText (i : Int) : List Char :=
  if i < 0 then '-' :: natText i.natAbs else natText i.natAbs

def readDigits? (cs : List Char) : Option Nat :=
  if cs.isEmpty || !cs.all isDigit then none else some (ofDigits cs)

def readInt? : List Char → Option Int
  | '-' :: cs => (readDigits? cs).map fun n => -(n : Int)
  | '+' :: cs => (readDigits? cs).map fun n => (n : Int)
  | cs => (readDigits? cs).map fun n => (n : Int)

def readNat? : List Char → Option Nat
  | '+' :: cs => readDigits? cs
  | cs => readDigits? cs

-- The integers from `lo` up to but without `hi`.
structure Range where
  lo : Int
  hi : Int
  deriving DecidableEq

namespace Range

def contains (r : Range) (i : Int) : Bool :=
  r.lo ≤ i && i < r.hi

def int32 : Range := ⟨-2147483648, 2147483648⟩
def uint32 : Range := ⟨0, 4294967296⟩
def int64 : Range := ⟨-9223372036854775808, 9223372036854775808⟩
def uint64 : Range := ⟨0, 18446744073709551616⟩
def int128 : Range := ⟨-170141183460469231731687303715884105728, 170141183460469231731687303715884105728⟩

-- The nearest integer of the range, for a range that is not empty.
def clamp (r : Range) (i : Int) : Int :=
  if i < r.lo then r.lo else if r.hi ≤ i then r.hi - 1 else i

-- Reads an integer of the range. Where the range holds no negative number, neither does the text hold a minus sign.
def read? (r : Range) (cs : List Char) : Option Int :=
  let value := if r.lo < 0 then readInt? cs else (readNat? cs).map fun n => (n : Int)
  value.filter r.contains

end Range

def roundHalfEven (num den : Nat) : Nat :=
  let q := num / den
  let r := num % den
  if 2 * r < den then q else if den < 2 * r then q + 1 else q + q % 2

end Protogen.Number
