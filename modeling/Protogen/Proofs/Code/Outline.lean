import Protogen.Proofs.Naming.ModuleNames

set_option autoImplicit false

namespace Protogen.Code

/-- A declared module: in a file of its own, or with the modules in it. `place` is the part of the path. -/
inductive Outline where
  | leaf (ident place : String)
  | inner (ident place : String) (body : List Outline)

namespace Outline

def ident : Outline → String
  | leaf ident _ | inner ident _ _ => ident

mutual

def leaves : Outline → List (List String × String)
  | leaf ident place => [([ident], place)]
  | inner ident place body => (leavesOf body).map fun l => (ident :: l.1, place ++ "/" ++ l.2)

def leavesOf : List Outline → List (List String × String)
  | [] => []
  | o :: os => o.leaves ++ leavesOf os

end

inductive Distinct : List Outline → Prop
  | intro {level : List Outline} (idents : (level.map ident).Nodup)
      (inside : ∀ i p body, inner i p body ∈ level → Distinct body) : Distinct level

end Outline

-- Tokens

inductive Token where
  | word (s : String)
  | literal (s : String)
  | sign (c : Char)
  deriving DecidableEq

inductive Place where
  | between
  | word (cs : List Char)
  | literal (cs : List Char)
  | slash
  | comment
  -- Inside of what is not read.
  | lost
  deriving DecidableEq

namespace Place

def enter (c : Char) : Place × List Token :=
  if Naming.isWordChar c then (word [c], [])
  else if c = '"' then (literal [], [])
  else if c = '/' then (slash, [])
  else if c = ' ' ∨ c = '\n' then (between, [])
  else (between, [.sign c])

def next (c : Char) : Place → Place × List Token
  | between => enter c
  | word cs =>
    if Naming.isWordChar c then (word (cs ++ [c]), [])
    else ((enter c).1, .word (String.ofList cs) :: (enter c).2)
  | literal cs =>
    if c = '"' then (between, [.literal (String.ofList cs)])
    else if c = '\\' ∨ c = '\r' then (lost, [])
    else (literal (cs ++ [c]), [])
  | slash => (if c = '/' then comment else lost, [])
  | comment => (if c = '\n' then between else comment, [])
  | lost => (lost, [])

def scan : Place → List Char → Place × List Token
  | p, [] => (p, [])
  | p, c :: cs => ((scan (p.next c).1 cs).1, (p.next c).2 ++ (scan (p.next c).1 cs).2)

variable {p : Place} {cs more : List Char}

@[simp]
theorem scan_nil : scan p [] = (p, []) :=
  rfl

theorem scan_append (p : Place) (cs more : List Char) :
    scan p (cs ++ more) = ((scan (scan p cs).1 more).1, (scan p cs).2 ++ (scan (scan p cs).1 more).2) := by
  induction cs generalizing p with
  | nil => rfl
  | cons c cs ih => simp only [List.cons_append, scan, ih, List.append_assoc]

end Place

def tokens? (text : String) : Option (List Token) :=
  match Place.between.scan text.toList with
  | (.between, ts) => some ts
  | _ => none

-- Declarations

/-- The modules that tokens declare, after those of `level` and inside of the modules `up`, the innermost first, each
with what stands before it. `place` is that of the module that comes next, if an attribute said it. -/
def declarations? (up : List (String × String × List Outline)) (level : List Outline) (place : Option String) :
    List Token → Option (List Outline)
  | [] => if up.isEmpty && place.isNone then some level else none
  | .sign '#' :: .sign '[' :: .word "path" :: .sign '=' :: .literal s :: .sign ']' :: ts =>
    if place.isNone then declarations? up level (some s) ts else none
  | .word "pub" :: .word "mod" :: .word ident :: .sign ';' :: ts =>
    if Naming.isIdentifier ident then declarations? up (level ++ [.leaf ident (place.getD (ident ++ ".rs"))]) none ts
    else none
  | .word "pub" :: .word "mod" :: .word ident :: .sign '\x7b' :: ts =>
    if Naming.isIdentifier ident then declarations? ((ident, place.getD ident, level) :: up) [] none ts else none
  | .sign '\x7d' :: ts =>
    match up with
    | [] => none
    | (ident, own, above) :: up =>
      if place.isNone then declarations? up (above ++ [.inner ident own level]) none ts else none
  | _ => none

def outlines? (text : String) : Option (List Outline) :=
  (tokens? text).bind (declarations? [] [] none)

end Protogen.Code
