import Protogen.Rpc.FanOut

set_option autoImplicit false

namespace Protogen.Rpc

variable {K V : Type}

inductive Outcome (V : Type)
  | answered (results : List (Except LoadError V))
  | failed (status : Status)
  | lost

-- The results of a batch of `n` keys.
def Outcome.results (n : Nat) : Outcome V → List (Except LoadError V)
  | .answered results => align n results
  | .failed s => List.replicate n (.error (.batch s))
  | .lost => List.replicate n (.error .cancelled)

theorem Outcome.length_results (n : Nat) (o : Outcome V) : (o.results n).length = n := by
  cases o <;> simp [Outcome.results, length_align]

/-- Loads are numbered in the order in which they come, and so are calls. -/
structure Loader (K V : Type) where
  loads : Nat
  -- The loads that wait for the next dispatch, where one is due.
  queue : Option (List (Nat × K))
  /-- How many dispatches are scheduled and have not run. -/
  scheduled : Nat
  -- The keys of each call.
  calls : List (List K)
  /-- The calls that have not ended, with the loads that each answers. -/
  inFlight : List (Nat × List Nat)
  -- The loads that have their result.
  settled : List (Nat × Except LoadError V)

namespace Loader

inductive Event (K V : Type)
  | load (key : K)
  | dispatch
  | finish (call : Nat) (outcome : Outcome V)

def empty : Loader K V :=
  ⟨0, none, 0, [], [], []⟩

def load (l : Loader K V) (key : K) : Loader K V :=
  match l.queue with
  | some waiting => { l with loads := l.loads + 1, queue := some (waiting ++ [(l.loads, key)]) }
  | none =>
    { l with loads := l.loads + 1, queue := some [(l.loads, key)], scheduled := l.scheduled + 1 }

def dispatch (l : Loader K V) : Loader K V :=
  if l.scheduled = 0 then l
  else
    match l.queue with
    | none => { l with scheduled := l.scheduled - 1 }
    | some waiting =>
      { l with
        queue := none
        scheduled := l.scheduled - 1
        calls := l.calls ++ [waiting.map (·.2)]
        inFlight := l.inFlight ++ [(l.calls.length, waiting.map (·.1))] }

def finish (l : Loader K V) (call : Nat) (outcome : Outcome V) : Loader K V :=
  match l.inFlight.lookup call with
  | none => l
  | some loads =>
    { l with
      inFlight := l.inFlight.filter (·.1 != call)
      settled := l.settled ++ loads.zip (outcome.results loads.length) }

-- An event that cannot happen changes nothing.
def step (l : Loader K V) : Event K V → Loader K V
  | .load key => l.load key
  | .dispatch => l.dispatch
  | .finish call outcome => l.finish call outcome

def run (events : List (Event K V)) : Loader K V :=
  events.foldl step empty

def loadAll (l : Loader K V) (keys : List K) : Loader K V :=
  keys.foldl load l

def result? (l : Loader K V) (load : Nat) : Option (Except LoadError V) :=
  l.settled.lookup load

-- Dispatches what is waiting, and sees its call through to the end.
def settle {m : Type → Type} [Monad m] (l : Loader K V) (call : List K → m (Outcome V)) :
    m (Loader K V) :=
  match l.queue with
  | none => pure l
  | some waiting => do
    let outcome ← call (waiting.map (·.2))
    return l.dispatch.finish l.calls.length outcome

end Loader

end Protogen.Rpc
