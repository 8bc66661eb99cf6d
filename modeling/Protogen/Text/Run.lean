set_option autoImplicit false

namespace Protogen.Text

structure Run where
  first : Nat
  last : Nat
  step : Nat

def Run.contains (r : Run) (n : Nat) : Bool :=
  r.first ≤ n && n ≤ r.last && (n - r.first) % r.step == 0

-- The code points of a run, each of which maps to the one `delta` further on.
structure Shift where
  run : Run
  delta : Int

def inRuns (table : List Run) (c : Char) : Bool :=
  table.any (·.contains c.toNat)

end Protogen.Text
