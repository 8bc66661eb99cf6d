import Protogen.Number.Integer
import Protogen.Time.Civil

set_option autoImplicit false

namespace Protogen.Time

open Number (isDigit ofDigits natText)

def nanosPerSecond : Int := 1000000000

/-- Nanoseconds since the first instant of 1970 in UTC, on a clock `offset` minutes ahead. -/
structure Moment where
  nanos : Int
  offset : Int
  deriving DecidableEq

namespace Moment

-- Seconds since the epoch, rounded down.
def seconds (m : Moment) : Int :=
  m.nanos / nanosPerSecond

def subsecond (m : Moment) : Nat :=
  (m.nanos % nanosPerSecond).toNat

def clock (m : Moment) : Int × Nat :=
  let n := m.nanos + m.offset * 60 * nanosPerSecond
  let day := 86400 * nanosPerSecond
  (n / day, (n % day).toNat)

def isRepresentable (nanos : Int) : Bool :=
  let day := 86400 * nanosPerSecond
  (Date.mk (-9999) 1 1).toDays * day ≤ nanos ∧ nanos < (Date.mk 10000 1 1).toDays * day

-- An instant in UTC.
def ofNanos? (nanos : Int) : Option Moment :=
  if isRepresentable nanos then some ⟨nanos, 0⟩ else none

def padded (width : Nat) (n : Nat) : List Char :=
  let ds := natText n
  List.replicate (width - ds.length) '0' ++ ds

-- A fraction of a second, without the zeros at its end; a whole second has none.
def fractionText (subsecond : Nat) : List Char :=
  if subsecond = 0 then []
  else '.' :: ((padded 9 subsecond).reverse.dropWhile (· = '0')).reverse

def offsetText (offset : Int) : List Char :=
  if offset = 0 then ['Z']
  else
    (if offset < 0 then '-' else '+') :: padded 2 (offset.natAbs / 60) ++
      ':' :: padded 2 (offset.natAbs % 60)

def text? (m : Moment) : Option String :=
  let (days, nanos) := m.clock
  let date := Date.ofDays days
  if 0 ≤ date.year ∧ date.year ≤ 9999 then
    let second := nanos / 1000000000
    some (String.ofList (
      padded 4 date.year.toNat ++ '-' :: padded 2 date.month ++ '-' :: padded 2 date.day ++
      'T' :: padded 2 (second / 3600) ++ ':' :: padded 2 (second / 60 % 60) ++
      ':' :: padded 2 (second % 60) ++ fractionText (nanos % 1000000000) ++ offsetText m.offset))
  else none

def digits? (n : Nat) (cs : List Char) : Option (Nat × List Char) :=
  let ds := cs.take n
  if ds.length = n ∧ ds.all isDigit then some (ofDigits ds, cs.drop n) else none

def char? (c : Char) : List Char → Option (List Char)
  | d :: cs => if c = d then some cs else none
  | [] => none

-- A fraction of a second in nanoseconds; digits past the ninth are read and ignored.
def fraction? (cs : List Char) : Option (Nat × List Char) :=
  match cs with
  | '.' :: cs =>
    let ds := cs.takeWhile isDigit
    if ds.isEmpty then none
    else some (ofDigits ((ds ++ List.replicate 9 '0').take 9), cs.dropWhile isDigit)
  | cs => some (0, cs)

def offset? (cs : List Char) : Option (Int × List Char) := do
  let signed (sign : Int) (cs : List Char) : Option (Int × List Char) := do
    let (hours, cs) ← digits? 2 cs
    let cs ← char? ':' cs
    let (minutes, cs) ← digits? 2 cs
    if hours ≤ 23 ∧ minutes ≤ 59 then some (sign * (60 * hours + minutes : Nat), cs) else none
  match cs with
  | 'Z' :: cs | 'z' :: cs => some (0, cs)
  | '+' :: cs => signed 1 cs
  | '-' :: cs => signed (-1) cs
  | _ => none

def endsMonth (nanos : Int) : Bool :=
  let second := nanos / nanosPerSecond
  let date := Date.ofDays (second / 86400)
  second % 86400 = 86399 ∧ date.day = daysInMonth date.year date.month

/-- Reads a date, any character of one byte, a time and an offset, and nothing more. A sixtieth second
stands for the last nanosecond of the one before it, and only ends a month in UTC. -/
def parse? (s : String) : Option Moment := do
  let (year, cs) ← digits? 4 s.toList
  let cs ← char? '-' cs
  let (month, cs) ← digits? 2 cs
  let cs ← char? '-' cs
  let (day, cs) ← digits? 2 cs
  let cs ←
    match cs with
    | c :: cs => if c.toNat < 128 then some cs else none
    | [] => none
  let (hour, cs) ← digits? 2 cs
  let cs ← char? ':' cs
  let (minute, cs) ← digits? 2 cs
  let cs ← char? ':' cs
  let (second, cs) ← digits? 2 cs
  let (fraction, cs) ← fraction? cs
  let (offset, cs) ← offset? cs
  let date : Date := ⟨year, month, day⟩
  if !cs.isEmpty ∨ !date.isValid ∨ 23 < hour ∨ 59 < minute ∨ 60 < second then none
  else
    let leap := second = 60
    let second := if leap then 59 else second
    let fraction := if leap then 999999999 else fraction
    let shown : Int := date.toDays * 86400 + (hour * 3600 + minute * 60 + second : Nat)
    let nanos := (shown - offset * 60) * nanosPerSecond + fraction
    if leap ∧ !endsMonth nanos then none else some ⟨nanos, offset⟩

end Moment

end Protogen.Time
