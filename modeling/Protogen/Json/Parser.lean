import Protogen.Json.Value
import Protogen.Number.Decimal

set_option autoImplicit false

namespace Protogen.Json

open Number (Double Decimal isDigit digitValue ofDigits)

-- The deepest nesting of lists and objects that is read.
def nestingLimit : Nat := 127

def isSpace (c : Char) : Bool :=
  c = ' ' || c = '\n' || c = '\t' || c = '\r'

private def skipSpace (cs : List Char) : List Char :=
  cs.dropWhile isSpace

private def hexValue? (c : Char) : Option Nat :=
  if '0' ≤ c ∧ c ≤ '9' then some (c.toNat - '0'.toNat)
  else if 'a' ≤ c ∧ c ≤ 'f' then some (c.toNat - 'a'.toNat + 10)
  else if 'A' ≤ c ∧ c ≤ 'F' then some (c.toNat - 'A'.toNat + 10)
  else none

-- Four hexadecimal digits.
private def readUnit? : List Char → Option (Nat × List Char)
  | a :: b :: c :: d :: cs => do
    let n := 16 * (16 * (16 * (← hexValue? a) + (← hexValue? b)) + (← hexValue? c)) + (← hexValue? d)
    some (n, cs)
  | _ => none

private def readCodePoint? (cs : List Char) : Option (Char × List Char) := do
  let (high, cs) ← readUnit? cs
  if high < 0xD800 ∨ 0xDFFF < high then some (Char.ofNat high, cs)
  else if high < 0xDC00 then
    match cs with
    | '\\' :: 'u' :: cs =>
      let (low, cs) ← readUnit? cs
      if 0xDC00 ≤ low ∧ low ≤ 0xDFFF then
        some (Char.ofNat (0x10000 + (high - 0xD800) * 0x400 + (low - 0xDC00)), cs)
      else none
    | _ => none
  else none

private def simpleEscape? (c : Char) : Option Char :=
  match c with
  | '"' => some '"'
  | '\\' => some '\\'
  | '/' => some '/'
  | 'b' => some '\x08'
  | 'f' => some '\x0c'
  | 'n' => some '\n'
  | 'r' => some '\r'
  | 't' => some '\t'
  | _ => none

private def readString? : Nat → List Char → List Char → Option (String × List Char)
  | 0, _, _ => none
  | _ + 1, _, [] => none
  | fuel + 1, acc, c :: cs =>
    if c = '"' then some (String.ofList acc.reverse, cs)
    else if c = '\\' then
      match cs with
      | 'u' :: cs =>
        match readCodePoint? cs with
        | some (c, cs) => readString? fuel (c :: acc) cs
        | none => none
      | e :: cs =>
        match simpleEscape? e with
        | some c => readString? fuel (c :: acc) cs
        | none => none
      | [] => none
    else if c.toNat < 32 then none
    else readString? fuel (c :: acc) cs

-- The value of a nonzero decimal as a double is built in steps: the digits, rounded, then a power of ten, rounded,
-- by which they are multiplied or divided. Below `10 ^ -308` the division takes two or more steps. The result is
-- `none` if it is not finite.
def scaleByTen (fuel : Nat) (x : Double) (exponent : Int) : Option Double :=
  match fuel with
  | 0 => some x
  | fuel + 1 =>
    if exponent.natAbs ≤ 308 then
      let (num, den) := x.magnitude.fraction
      let (pnum, pden) := (Double.ofFraction false (Nat.pow 10 exponent.natAbs) 1).magnitude.fraction
      let y :=
        if 0 ≤ exponent then Double.ofFraction false (num * pnum) (den * pden)
        else Double.ofFraction false (num * pden) (den * pnum)
      if y.isFinite then some y else none
    else if x.isZero then some x
    else if 0 ≤ exponent then none
    else
      let (num, den) := x.magnitude.fraction
      let (pnum, pden) := (Double.ofFraction false (Nat.pow 10 308) 1).magnitude.fraction
      scaleByTen fuel (Double.ofFraction false (num * pden) (den * pnum)) (exponent + 308)

-- The first digits that fit 64 bits, as a number, and how many digits were left out.
private def leadingDigits : Nat → List Char → Nat × Nat
  | n, [] => (n, 0)
  | n, c :: cs =>
    let m := 10 * n + digitValue c
    if m < 18446744073709551616 then leadingDigits m cs else (n, (c :: cs).length)

-- The exponents that are told apart; digits that go past them count as this one.
private def exponentLimit : Nat := 2147483647

private def clampExponent (e : Int) : Int :=
  max (-2147483648) (min e exponentLimit)

-- A number with a fraction, an exponent or too many digits for an integer: its whole digits, its fraction digits
-- and its exponent.
private def doubleOfLiteral? (negative : Bool) (whole fraction : List Char) (exponent : Option Int) :
    Option Double := do
  let (n, dropped) := leadingDigits 0 whole
  -- Fraction digits continue the same number, up to the first that does not fit.
  let (m, left) := leadingDigits n fraction
  let point : Int := dropped - (fraction.length - left : Nat)
  let magnitude ←
    match exponent with
    | none => scaleByTen 4 (Double.ofFraction false m 1) point
    | some e =>
      if exponentLimit < e.natAbs then if m ≠ 0 ∧ 0 < e then none else some Double.zero
      else scaleByTen 4 (Double.ofFraction false m 1) (clampExponent (point + e))
  some (Double.ofParts negative magnitude.unsigned)

private def readExponent? (cs : List Char) : Option (Option Int × List Char) :=
  match cs with
  | c :: cs =>
    if c = 'e' ∨ c = 'E' then
      let (negative, cs) :=
        match cs with
        | '+' :: cs => (false, cs)
        | '-' :: cs => (true, cs)
        | cs => (false, cs)
      let ds := cs.takeWhile isDigit
      if ds.isEmpty then none
      else
        let e : Int := ofDigits ds
        some (some (if negative then -e else e), cs.dropWhile isDigit)
    else some (none, c :: cs)
  | [] => some (none, [])

private def readNumber? (negative : Bool) (cs : List Char) : Option (Json × List Char) := do
  let whole := cs.takeWhile isDigit
  let cs := cs.dropWhile isDigit
  if whole.isEmpty ∨ (whole.head? = some '0' ∧ whole.length ≠ 1) then none
  let (fraction, cs) ←
    match cs with
    | '.' :: r =>
      let ds := r.takeWhile isDigit
      if ds.isEmpty then none else some (some ds, r.dropWhile isDigit)
    | r => some (none, r)
  let (exponent, cs) ← readExponent? cs
  let n := ofDigits whole
  if fraction.isNone ∧ exponent.isNone ∧ n < 18446744073709551616 then
    if !negative then some (.int n, cs)
    else if n ≠ 0 ∧ n ≤ 9223372036854775808 then some (.int (-n), cs)
    else some (.double (Double.ofParts true (Double.ofFraction false n 1).unsigned), cs)
  else
    let x ← doubleOfLiteral? negative whole (fraction.getD []) exponent
    some (.double x, cs)

private def readWord? (word : String) (value : Json) (cs : List Char) : Option (Json × List Char) :=
  if word.toList.isPrefixOf cs then some (value, cs.drop word.length) else none

mutual

/-- A value at the start of the text, which may be preceded by white space, and the text after it;
`levels` lists and objects may still open. -/
private def readValue? (fuel levels : Nat) (cs : List Char) : Option (Json × List Char) :=
  match fuel with
  | 0 => none
  | fuel + 1 =>
    match skipSpace cs with
    | [] => none
    | '"' :: cs => (readString? fuel [] cs).map fun (s, cs) => (.string s, cs)
    | '[' :: cs =>
      match levels with
      | 0 => none
      | levels + 1 =>
        match skipSpace cs with
        | ']' :: cs => some (.array [], cs)
        | cs => readItems? fuel levels [] cs
    | '\x7b' :: cs =>
      match levels with
      | 0 => none
      | levels + 1 =>
        match skipSpace cs with
        | '\x7d' :: cs => some (.object [], cs)
        | cs => readMembers? fuel levels [] cs
    | '-' :: cs => readNumber? true cs
    | c :: cs =>
      if isDigit c then readNumber? false (c :: cs)
      else if c = 'n' then readWord? "null" .null (c :: cs)
      else if c = 't' then readWord? "true" (.bool true) (c :: cs)
      else if c = 'f' then readWord? "false" (.bool false) (c :: cs)
      else none

private def readItems? (fuel levels : Nat) (acc : List Json) (cs : List Char) :
    Option (Json × List Char) :=
  match fuel with
  | 0 => none
  | fuel + 1 =>
    match readValue? fuel levels cs with
    | none => none
    | some (v, cs) =>
      match skipSpace cs with
      | ',' :: cs => readItems? fuel levels (v :: acc) cs
      | ']' :: cs => some (.array (v :: acc).reverse, cs)
      | _ => none

private def readMembers? (fuel levels : Nat) (acc : List (String × Json)) (cs : List Char) :
    Option (Json × List Char) :=
  match fuel with
  | 0 => none
  | fuel + 1 =>
    match skipSpace cs with
    | '"' :: cs =>
      match readString? fuel [] cs with
      | none => none
      | some (k, cs) =>
        match skipSpace cs with
        | ':' :: cs =>
          match readValue? fuel levels cs with
          | none => none
          | some (v, cs) =>
            match skipSpace cs with
            | ',' :: cs => readMembers? fuel levels ((k, v) :: acc) cs
            | '\x7d' :: cs => some (ofMembers ((k, v) :: acc).reverse, cs)
            | _ => none
        | _ => none
    | _ => none

end

-- Every step of the reader takes a character or hands on to a step that does, so twice the length bounds the steps.
def parse? (text : String) : Option Json :=
  let cs := text.toList
  match readValue? (2 * cs.length + 2) nestingLimit cs with
  | some (v, rest) => if (skipSpace rest).isEmpty then some v else none
  | none => none

section Keys

-- Whatever value is read has every key of an object once.
private def ReadsKeyed (read : Option (Json × List Char)) : Prop :=
  ∀ v rest, read = some (v, rest) → v.Keyed

private theorem readsKeyed_none : ReadsKeyed none :=
  nofun

private theorem readsKeyed_some {v : Json} {rest : List Char} (keyed : v.Keyed) : ReadsKeyed (some (v, rest)) := by
  rintro _ _ ⟨⟩
  exact keyed

private theorem readsKeyed_bind {α : Type} {x : Option α} {next : α → Option (Json × List Char)}
    (each : ∀ a, ReadsKeyed (next a)) : ReadsKeyed (x >>= next) := by
  intro v rest read
  obtain ⟨a, -, read⟩ := Option.bind_eq_some_iff.1 read
  exact each a v rest read

private theorem readsKeyed_readNumber? (negative : Bool) (cs : List Char) :
    ReadsKeyed (readNumber? negative cs) := by
  unfold readNumber?
  dsimp only
  -- Every way through the reader ends in nothing, in an integer or in a double.
  repeat' first
    | exact readsKeyed_some (.int _)
    | exact readsKeyed_some (.double _)
    | refine readsKeyed_bind fun _ => ?_
    | split

private theorem readsKeyed_readWord? (word : String) {value : Json} (keyed : value.Keyed) (cs : List Char) :
    ReadsKeyed (readWord? word value cs) := by
  rw [readWord?]
  split
  next => exact readsKeyed_some keyed
  next => exact readsKeyed_none

private theorem readsKeyed_value (fuel : Nat) :
    (∀ levels cs, ReadsKeyed (readValue? fuel levels cs)) ∧
    (∀ levels acc cs, (∀ v ∈ acc, v.Keyed) → ReadsKeyed (readItems? fuel levels acc cs)) ∧
    ∀ levels acc cs, (∀ m ∈ acc, m.2.Keyed) → ReadsKeyed (readMembers? fuel levels acc cs) := by
  induction fuel with
  | zero => exact ⟨fun _ _ => readsKeyed_none, fun _ _ _ _ => readsKeyed_none, fun _ _ _ _ => readsKeyed_none⟩
  | succ fuel ih =>
    obtain ⟨values, items, members⟩ := ih
    refine ⟨fun levels cs => ?value, fun levels acc cs keyed => ?items, fun levels acc cs keyed => ?members⟩
    case value =>
      unfold readValue?
      split
      next => exact readsKeyed_none
      next =>
        intro v rest read
        obtain ⟨_, _, same⟩ := Option.map_eq_some_iff.1 read
        cases same
        exact .string _
      next =>
        split
        next => exact readsKeyed_none
        next =>
          split
          next => exact readsKeyed_some (.array (List.forall_mem_nil _))
          next => exact items _ _ _ (List.forall_mem_nil _)
      next =>
        split
        next => exact readsKeyed_none
        next =>
          split
          next => exact readsKeyed_some (.object .nil (List.forall_mem_nil _))
          next => exact members _ _ _ (List.forall_mem_nil _)
      next => exact readsKeyed_readNumber? _ _
      next =>
        split
        next => exact readsKeyed_readNumber? _ _
        split
        next => exact readsKeyed_readWord? _ .null _
        split
        next => exact readsKeyed_readWord? _ (.bool true) _
        split
        next => exact readsKeyed_readWord? _ (.bool false) _
        next => exact readsKeyed_none
    case items =>
      unfold readItems?
      split
      next => exact readsKeyed_none
      next v _ first =>
        have keyed' : ∀ v' ∈ v :: acc, v'.Keyed := List.forall_mem_cons.2 ⟨values _ _ _ _ first, keyed⟩
        split
        next => exact items _ _ _ keyed'
        next => exact readsKeyed_some (.array fun v' member => keyed' v' (List.mem_reverse.1 member))
        next => exact readsKeyed_none
    case members =>
      unfold readMembers?
      split
      next =>
        split
        next => exact readsKeyed_none
        next key _ _ =>
          split
          next =>
            split
            next => exact readsKeyed_none
            next v _ first =>
              have keyed' : ∀ m ∈ (key, v) :: acc, m.2.Keyed :=
                List.forall_mem_cons.2 ⟨values _ _ _ _ first, keyed⟩
              split
              next => exact members _ _ _ keyed'
              next =>
                exact readsKeyed_some (keyed_ofMembers fun m member => keyed' m (List.mem_reverse.1 member))
              next => exact readsKeyed_none
          next => exact readsKeyed_none
      next => exact readsKeyed_none

theorem keyed_of_parse? {text : String} {v : Json} (parsed : parse? text = some v) : v.Keyed := by
  simp only [parse?] at parsed
  split at parsed
  next _ _ read =>
    split at parsed <;> cases parsed
    exact (readsKeyed_value _).1 _ _ _ _ read
  next => cases parsed

end Keys

end Protogen.Json
