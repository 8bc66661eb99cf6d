import Protogen.Rpc.Retry.Stream

set_option autoImplicit false

namespace Protogen.Rpc.Retry

namespace Stream

variable {α : Type}

-- Reads to the end: the items, and the stream when it has ended. The reader takes an item whenever the sender has
-- no move.
def readAll (p : Policy) (s : Stream α) : List (Except Status α) × Stream α :=
  match _move : s.send? p with
  | some next => readAll p next
  | none =>
    match _items : s.buffer with
    | item :: rest =>
      let (items, last) := readAll p { s with buffer := rest }
      (item :: items, last)
    | [] => if _waits : s.phase.isWaiting then readAll p s.wake else ([], s)
termination_by s.distance
decreasing_by
  · exact distance_send? _move
  · simp [distance, _items]
  · exact distance_wake _waits

def elapsed (p : Policy) (s : Stream α) : Nat :=
  s.delays * p.delay

-- Lets everything happen that happens before a time while nobody reads.
def runBefore (p : Policy) (time : Nat) (s : Stream α) : Stream α :=
  if s.elapsed p < time then
    match _move : s.send? p with
    | some next => runBefore p time next
    | none =>
      if _waits : s.phase.isWaiting then
        if s.wake.elapsed p < time then runBefore p time s.wake else s
      else s
  else s
termination_by s.distance
decreasing_by
  · exact distance_send? _move
  · exact distance_wake _waits

end Stream

structure Report (α : Type) where
  items : List (Except Status α)
  states : List StreamState
  connections : Nat
  elapsed : Nat

variable {α : Type}

def readToEnd (p : Policy) (attempts : List (Attempt α)) : Report α :=
  let (items, last) := (Stream.start attempts).readAll p
  ⟨items, last.states, last.connections, last.elapsed p⟩

-- The reader drops the stream at a time without having read from it. No time of reading passes.
def dropAt (p : Policy) (time : Nat) (attempts : List (Attempt α)) : Report α :=
  let last := ((Stream.start attempts).runBefore p time).drop
  ⟨[], last.states, last.connections, 0⟩

end Protogen.Rpc.Retry
