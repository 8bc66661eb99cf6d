set_option autoImplicit false

namespace Protogen.Time

structure Date where
  year : Int
  month : Nat
  day : Nat
  deriving DecidableEq

def isLeap (year : Int) : Bool :=
  year % 4 = 0 ∧ (year % 100 ≠ 0 ∨ year % 400 = 0)

def monthLengths (leap : Bool) : List Nat :=
  [31, if leap then 29 else 28, 31, 30, 31, 30, 31, 31, 30, 31, 30, 31]

def daysInMonth (year : Int) (month : Nat) : Nat :=
  (monthLengths (isLeap year)).getD (month - 1) 0

-- The days from the first of year 0 to the first of a year. Of the years from 0 on, the first of every four is a
-- leap year, but the first of a hundred only if it is the first of four hundred.
def daysBeforeYear (year : Int) : Int :=
  365 * year + (year + 3) / 4 - (year + 99) / 100 + (year + 399) / 400

def epochDay : Int :=
  daysBeforeYear 1970

-- The year that holds a day counted from the first of year 0. The mean length of a year gives it up to one year.
def yearOfDay (n : Int) : Int :=
  let guess := 400 * n / 146097
  if n < daysBeforeYear guess then guess - 1
  else if daysBeforeYear (guess + 1) ≤ n then guess + 1
  else guess

-- The month, counted on from `month`, and the day of it that lie `n` days after its first day.
def monthOfDay : List Nat → Nat → Nat → Nat × Nat
  | [], month, n => (month, n + 1)
  | len :: lens, month, n => if n < len then (month, n + 1) else monthOfDay lens (month + 1) (n - len)

namespace Date

def isValid (d : Date) : Bool :=
  1 ≤ d.month ∧ d.month ≤ 12 ∧ 1 ≤ d.day ∧ d.day ≤ daysInMonth d.year d.month

def toDays (d : Date) : Int :=
  let before : Nat := ((monthLengths (isLeap d.year)).take (d.month - 1)).foldr (· + ·) 0
  daysBeforeYear d.year + before + (d.day : Int) - 1 - epochDay

def ofDays (days : Int) : Date :=
  let n := days + epochDay
  let year := yearOfDay n
  let (month, day) := monthOfDay (monthLengths (isLeap year)) 1 (n - daysBeforeYear year).toNat
  ⟨year, month, day⟩

end Date

end Protogen.Time
