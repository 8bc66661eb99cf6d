import Protogen.Rpc.Status

set_option autoImplicit false

namespace Protogen.Rpc

inductive LoadError
  | batch (status : Status)
  | missingKey (key : String)
  | cancelled
  deriving DecidableEq, Repr

namespace LoadError

def message : LoadError → String
  | .batch s => "batch call failed with " ++ s.code.name ++ ": " ++ s.message
  | .missingKey key => "no result for key " ++ key
  | .cancelled => "loader went away before the batch resolved"

-- The status that a caller gets. A batch that failed passes its own on.
def status : LoadError → Status
  | .batch s => s
  | .missingKey key => ⟨.notFound, (missingKey key).message⟩
  | .cancelled => ⟨.cancelled, cancelled.message⟩

def missingAt (position : Nat) : LoadError :=
  .missingKey ("#" ++ toString position)

end LoadError

variable {K V : Type}

def alignFrom (position : Nat) : Nat → List (Except LoadError V) → List (Except LoadError V)
  | 0, _ => []
  | n + 1, [] => .error (.missingAt position) :: alignFrom (position + 1) n []
  | n + 1, r :: rs => r :: alignFrom (position + 1) n rs

-- Gives each of `n` keys the result at its own place. Results beyond the last key are left out.
def align (n : Nat) (results : List (Except LoadError V)) : List (Except LoadError V) :=
  alignFrom 0 n results

theorem length_alignFrom (position n : Nat) (results : List (Except LoadError V)) :
    (alignFrom position n results).length = n := by
  induction n generalizing position results with
  | zero => rfl
  | succ n ih => cases results <;> simp [alignFrom, ih]

theorem length_align (n : Nat) (results : List (Except LoadError V)) :
    (align n results).length = n :=
  length_alignFrom 0 n results

theorem getElem?_alignFrom (position n i : Nat) (results : List (Except LoadError V)) (h : i < n) :
    (alignFrom position n results)[i]? =
      some (results[i]?.getD (.error (.missingAt (position + i)))) := by
  induction n generalizing position i results with
  | zero => omega
  | succ n ih =>
    cases i with
    | zero => cases results <;> simp [alignFrom]
    | succ i =>
      have inside : i < n := by omega
      have place : position + 1 + i = position + (i + 1) := by omega
      cases results <;> simp [alignFrom, ih, inside, place]

theorem getElem?_align (n i : Nat) (results : List (Except LoadError V)) (h : i < n) :
    (align n results)[i]? = some (results[i]?.getD (.error (.missingAt i))) := by
  simpa [align] using getElem?_alignFrom 0 n i results h

-- A list of values answers keys by their places.
def byPosition (n : Nat) (values : List V) : List (Except LoadError V) :=
  align n (values.map .ok)

-- A look-up answers each key by itself. `shown` is the text of a key in an error.
def byKey (shown : K → String) (find? : K → Option V) (keys : List K) : List (Except LoadError V) :=
  keys.map fun k =>
    match find? k with
    | some v => .ok v
    | none => .error (.missingKey (shown k))

def single (results : List (Except LoadError V)) : Except Status V :=
  (results.headD (.error (.missingAt 0))).mapError LoadError.status

end Protogen.Rpc
