import Protogen.Naming.Case
import Protogen.Schema.Basic

set_option autoImplicit false

namespace Protogen.Target

-- A variant, for all values of one number.
structure Variant where
  name : String
  number : Int32
  -- The name of the first value, which is the one that is written.
  written : String
  /-- The names of the other values. -/
  others : List String
  deriving DecidableEq

def Variant.aliases (v : Variant) : List String :=
  v.written :: v.others

-- Appends underscores until a name is not taken, at most `fuel` of them.
def freshNameTo (taken : List String) : Nat → String → String
  | 0, name => name
  | fuel + 1, name => if taken.contains name then freshNameTo taken fuel (name ++ "_") else name

/-- The name with as few underscores after it as keep it apart from those that are taken. -/
def freshName (taken : List String) (name : String) : String :=
  freshNameTo taken taken.length name

def addValue (variants : List Variant) (v : Schema.EnumValue) : List Variant :=
  if variants.any (·.number == v.number) then
    variants.map fun w =>
      if w.number = v.number then { w with others := w.others ++ [v.name] } else w
  else
    variants ++ [{
      name := freshName (variants.map (·.name)) (Naming.variant v.name)
      number := v.number
      written := v.name
      others := [] }]

structure Enumeration where
  symbol : String
  variants : List Variant

namespace Enumeration

def ofSchema (symbol : String) (e : Schema.Enum) : Enumeration :=
  ⟨symbol, e.values.foldl addValue []⟩

-- The variant that stands for values which the schema does not name.
def fallback : String := "Unrecognized"

-- Whether that variant has to be added.
def addsFallback (e : Enumeration) : Bool :=
  !e.variants.any (·.name == fallback)

-- The variants with the numbers that they are written as; an added one is written as -1.
def numbers (e : Enumeration) : List (String × Int32) :=
  e.variants.map (fun v => (v.name, v.number)) ++ if e.addsFallback then [(fallback, -1)] else []

def names (e : Enumeration) : List (String × String) :=
  e.variants.map (fun v => (v.name, v.written)) ++
    if e.addsFallback then [(fallback, "UNRECOGNIZED")] else []

def toNumber? (e : Enumeration) (variant : String) : Option Int32 :=
  (e.numbers.find? (·.1 == variant)).map (·.2)

def ofNumber (e : Enumeration) (n : Int32) : String :=
  ((e.variants.find? (·.number == n)).map (·.name)).getD fallback

end Enumeration

end Protogen.Target
