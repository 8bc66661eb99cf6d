import Protogen.Rpc.Retry.Policy

set_option autoImplicit false

namespace Protogen.Rpc.Retry

abbrev Attempt (α : Type) := List (Except Status α)

inductive StreamState
  | connecting
  | streaming
  | retrying
  | completed
  | failed
  deriving DecidableEq, Repr

def StreamState.name : StreamState → String
  | .connecting => "Connecting"
  | .streaming => "Streaming"
  | .retrying => "Retrying"
  | .completed => "Completed"
  | .failed => "Failed"

-- What the sender does next.
inductive Phase (α : Type)
  | connecting
  -- Takes the rest of a connection. `started` tells whether the connection has brought a message.
  | receiving (rest : Attempt α) (started : Bool)
  | sending (message : α) (rest : Attempt α)
  | sendingFailure (status : Status)
  | waiting
  | stopped

def Phase.isWaiting {α : Type} : Phase α → Bool
  | .waiting => true
  | _ => false

structure Stream (α : Type) where
  phase : Phase α
  -- What the connections to come will bring.
  attempts : List (Attempt α)
  buffer : List (Except Status α)
  states : List StreamState
  connections : Nat
  -- How many delays have passed.
  delays : Nat

namespace Stream

variable {α : Type}

def start (attempts : List (Attempt α)) : Stream α :=
  ⟨.connecting, attempts, [], [], 0, 0⟩

def bufferSize : Nat :=
  16

-- Connects. The observer is told of every connection but the first.
def connect (s : Stream α) : Stream α :=
  { s with
    phase := .receiving (s.attempts.headD []) false
    attempts := s.attempts.tail
    states := if s.connections = 0 then s.states else s.states ++ [.connecting]
    connections := s.connections + 1 }

def receive (p : Policy) (s : Stream α) (started : Bool) : Attempt α → Stream α
  | [] => { s with phase := .stopped, states := s.states ++ [.completed] }
  | .ok message :: rest =>
    { s with
      phase := .sending message rest
      states := if started then s.states else s.states ++ [.streaming] }
  | .error status :: _ =>
    if p.isTransient status.code then
      { s with phase := .waiting, states := s.states ++ [.retrying] }
    else { s with phase := .sendingFailure status, states := s.states ++ [.failed] }

-- A move of the sender. It has none while it waits, when the buffer is full and after the end.
def send? (p : Policy) (s : Stream α) : Option (Stream α) :=
  match s.phase with
  | .connecting => some s.connect
  | .receiving rest started => some (receive p s started rest)
  | .sending message rest =>
    if s.buffer.length < bufferSize then
      some { s with phase := .receiving rest true, buffer := s.buffer ++ [.ok message] }
    else none
  | .sendingFailure status =>
    if s.buffer.length < bufferSize then
      some { s with phase := .stopped, buffer := s.buffer ++ [.error status] }
    else none
  | .waiting => none
  | .stopped => none

def wake (s : Stream α) : Stream α :=
  match s.phase with
  | .waiting => { s with phase := .connecting, delays := s.delays + 1 }
  | _ => s

def drop (s : Stream α) : Stream α :=
  { s with phase := .stopped }

-- A bound on the steps that connections to come can take.
def stepsAhead : List (Attempt α) → Nat
  | [] => 0
  | attempt :: rest => 3 * attempt.length + stepsAhead rest

/-- How far a stream is from its end: each move of the sender, each item taken and each delay makes it
smaller. -/
def distance (s : Stream α) : Nat :=
  let ahead := stepsAhead s.attempts
  s.buffer.length +
    match s.phase with
    | .connecting => ahead + 2
    | .receiving rest _ => ahead + 3 * rest.length + 1
    | .sending _ rest => ahead + 3 * rest.length + 3
    | .sendingFailure _ => 2
    | .waiting => ahead + 3
    | .stopped => 0

theorem distance_send? {p : Policy} {s t : Stream α} (h : s.send? p = some t) :
    t.distance < s.distance := by
  obtain ⟨phase, attempts, buffer, states, connections, delays⟩ := s
  cases phase with
  | connecting =>
    simp only [send?, Option.some.injEq] at h
    subst h
    cases attempts <;> simp [connect, distance, stepsAhead]
    omega
  | receiving rest started =>
    rcases rest with _ | ⟨_ | message, rest⟩
    · simp only [send?, receive, Option.some.injEq] at h
      subst h
      simp [distance]
    · simp only [send?, receive, Option.some.injEq] at h
      subst h
      split
      all_goals
        simp only [distance, List.length_cons]
        omega
    · simp only [send?, receive, Option.some.injEq] at h
      subst h
      simp [distance]
      omega
  | sending message rest =>
    simp only [send?] at h
    split at h
    · simp only [Option.some.injEq] at h
      subst h
      simp [distance]
      omega
    · contradiction
  | sendingFailure status =>
    simp only [send?] at h
    split at h
    · simp only [Option.some.injEq] at h
      subst h
      simp [distance]
    · contradiction
  | waiting => simp [send?] at h
  | stopped => simp [send?] at h

theorem distance_wake {s : Stream α} (h : s.phase.isWaiting) :
    s.wake.distance < s.distance := by
  obtain ⟨phase, attempts, buffer, states, connections, delays⟩ := s
  cases phase <;> simp_all [Phase.isWaiting, wake, distance]

end Stream

end Protogen.Rpc.Retry
