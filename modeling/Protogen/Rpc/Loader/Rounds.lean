import Protogen.Rpc.Loader.Basic

set_option autoImplicit false

namespace Protogen.Rpc.Loader

variable {K V : Type}

structure Round (K : Type) where
  time : Nat
  keys : List K

-- Rounds with their places, in the order of their times. Those of one time keep the order they have.
def inTime (rounds : List (Round K)) : List (Round K × Nat) :=
  rounds.zipIdx.mergeSort fun a b => a.1.time ≤ b.1.time

def serveInTime (answer : Nat → List K → Outcome V) :
    List (Round K × Nat) → Loader K V → Loader K V × List (Nat × List Nat)
  | [], l => (l, [])
  | (round, place) :: rest, l =>
    let loaded := l.loadAll round.keys
    let joined := (rest.head?.map (·.1.time)) == some round.time
    let next :=
      if joined then loaded
      else Id.run (loaded.settle fun keys => answer loaded.calls.length keys)
    let (last, loads) := serveInTime answer rest next
    (last, (place, List.range' l.loads round.keys.length) :: loads)

def serve (answer : Nat → List K → Outcome V) (rounds : List (Round K)) :
    Loader K V × List (List (Except LoadError V)) :=
  let (l, loads) := serveInTime answer (inTime rounds) empty
  (l, rounds.zipIdx.map fun (_, place) =>
    ((loads.lookup place).getD []).filterMap l.result?)

end Protogen.Rpc.Loader
