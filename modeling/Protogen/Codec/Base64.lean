set_option autoImplicit false

namespace Protogen.Base64

-- The digits of values 62 and 63, in which the two alphabets differ.
structure Alphabet where
  digit62 : Char
  digit63 : Char

def standard : Alphabet := ⟨'+', '/'⟩
def urlSafe : Alphabet := ⟨'-', '_'⟩

namespace Alphabet

def digit (a : Alphabet) (n : Nat) : Char :=
  if n < 26 then Char.ofNat ('A'.toNat + n)
  else if n < 52 then Char.ofNat ('a'.toNat + (n - 26))
  else if n < 62 then Char.ofNat ('0'.toNat + (n - 52))
  else if n = 62 then a.digit62
  else a.digit63

def value? (a : Alphabet) (c : Char) : Option Nat :=
  if 'A' ≤ c ∧ c ≤ 'Z' then some (c.toNat - 'A'.toNat)
  else if 'a' ≤ c ∧ c ≤ 'z' then some (c.toNat - 'a'.toNat + 26)
  else if '0' ≤ c ∧ c ≤ '9' then some (c.toNat - '0'.toNat + 52)
  else if c = a.digit62 then some 62
  else if c = a.digit63 then some 63
  else none

-- The digits of bytes, six bits each, with zero bits at the end to fill the last of them.
def digits (a : Alphabet) : List UInt8 → List Char
  | [] => []
  | [x] =>
    let n := x.toNat * 16
    [a.digit (n / 64), a.digit (n % 64)]
  | [x, y] =>
    let n := (x.toNat * 256 + y.toNat) * 4
    [a.digit (n / 4096), a.digit (n / 64 % 64), a.digit (n % 64)]
  | x :: y :: z :: bytes =>
    let n := (x.toNat * 256 + y.toNat) * 256 + z.toNat
    a.digit (n / 262144) :: a.digit (n / 4096 % 64) :: a.digit (n / 64 % 64) :: a.digit (n % 64) ::
      a.digits bytes

-- The bytes of digits. The bits that are left over at the end must be zero.
def bytes? (a : Alphabet) : List Char → Option (List UInt8)
  | [] => some []
  | [_] => none
  | [c, d] => do
    let n := (← a.value? c) * 64 + (← a.value? d)
    if n % 16 = 0 then some [UInt8.ofNat (n / 16)] else none
  | [c, d, e] => do
    let n := ((← a.value? c) * 64 + (← a.value? d)) * 64 + (← a.value? e)
    if n % 4 = 0 then some [UInt8.ofNat (n / 1024), UInt8.ofNat (n / 4)] else none
  | c :: d :: e :: f :: cs => do
    let n := (((← a.value? c) * 64 + (← a.value? d)) * 64 + (← a.value? e)) * 64 + (← a.value? f)
    let rest ← a.bytes? cs
    some (UInt8.ofNat (n / 65536) :: UInt8.ofNat (n / 256) :: UInt8.ofNat n :: rest)

end Alphabet

def padding (bytes : List UInt8) : List Char :=
  List.replicate ((3 - bytes.length % 3) % 3) '='

def encode (b : ByteArray) : String :=
  let bytes := b.data.toList
  String.ofList (standard.digits bytes ++ padding bytes)

-- Reads the standard alphabet, or else the one for URLs, with any padding at the end.
def decode? (s : String) : Option ByteArray :=
  let cs := (s.toList.reverse.dropWhile (· = '=')).reverse
  (standard.bytes? cs <|> urlSafe.bytes? cs).map fun bytes => ⟨bytes.toArray⟩

end Protogen.Base64
