import Protogen.Rpc.Retry.Run

set_option autoImplicit false

namespace Protogen.Rpc.Retry

variable {α : Type}

namespace Attempt

@[simp]
def messages : Attempt α → List α
  | .ok message :: rest => message :: messages rest
  | _ => []

@[simp]
def failure? : Attempt α → Option Status
  | [] => none
  | .ok _ :: rest => failure? rest
  | .error status :: _ => some status

def Passes (p : Policy) (attempt : Attempt α) : Prop :=
  ∃ status, attempt.failure? = some status ∧ p.isTransient status.code

end Attempt

def brought (attempts : List (Attempt α)) (i : Nat) : Attempt α :=
  attempts.getD i []

-- Connection `k` is the first that does not fail in a way that may pass.
structure EndsWith (p : Policy) (attempts : List (Attempt α)) (k : Nat) : Prop where
  passing : ∀ i < k, (brought attempts i).Passes p
  last : ¬(brought attempts k).Passes p

def itemsUpTo (attempts : List (Attempt α)) (k : Nat) : List (Except Status α) :=
  ((List.range (k + 1)).flatMap fun i => (brought attempts i).messages.map .ok) ++
    (brought attempts k).failure?.toList.map .error

def statesOf (attempts : List (Attempt α)) (k i : Nat) : List StreamState :=
  (if 0 < i then [.connecting] else []) ++
    (if (brought attempts i).messages = [] then [] else [.streaming]) ++
      [if i < k then .retrying else if (brought attempts i).failure? = none then .completed else .failed]

def statesUpTo (attempts : List (Attempt α)) (k : Nat) : List StreamState :=
  (List.range (k + 1)).flatMap (statesOf attempts k)

section

variable {p : Policy} {attempt : Attempt α} {attempts : List (Attempt α)} {k i : Nat}

theorem endsWith_zero : EndsWith p attempts 0 ↔ ¬(brought attempts 0).Passes p :=
  ⟨EndsWith.last, fun last => ⟨fun _ lt => absurd lt (Nat.not_lt_zero _), last⟩⟩

theorem endsWith_succ : EndsWith p (attempt :: attempts) (k + 1) ↔ attempt.Passes p ∧ EndsWith p attempts k := by
  constructor
  · rintro ⟨passing, last⟩
    exact ⟨passing 0 k.succ_pos, fun i lt => passing (i + 1) (Nat.succ_lt_succ lt), last⟩
  · rintro ⟨first, passing, last⟩
    refine ⟨fun i lt => ?_, last⟩
    cases i with
    | zero => exact first
    | succ i => exact passing i (Nat.lt_of_succ_lt_succ lt)

theorem exists_endsWith (p : Policy) (attempts : List (Attempt α)) : ∃ k, EndsWith p attempts k := by
  induction attempts with
  | nil => exact ⟨0, endsWith_zero.2 fun ⟨_, failed, _⟩ => nomatch failed⟩
  | cons attempt attempts ih =>
    by_cases passes : attempt.Passes p
    next =>
      obtain ⟨k, ends⟩ := ih
      exact ⟨k + 1, endsWith_succ.2 ⟨passes, ends⟩⟩
    next => exact ⟨0, endsWith_zero.2 passes⟩

theorem itemsUpTo_succ :
    itemsUpTo (attempt :: attempts) (k + 1) = attempt.messages.map .ok ++ itemsUpTo attempts k := by
  simp [itemsUpTo, List.range_succ_eq_map (n := k + 1), List.flatMap_map, brought]

theorem statesOf_succ : statesOf (attempt :: attempts) (k + 1) (i + 1) =
    (if 0 < i then [] else [.connecting]) ++ statesOf attempts k i := by
  rcases i.eq_zero_or_pos with rfl | pos <;> simp [statesOf, brought, *]

theorem statesUpTo_succ : statesUpTo (attempt :: attempts) (k + 1) =
    (if attempt.messages = [] then [] else [.streaming]) ++ .retrying :: .connecting :: statesUpTo attempts k := by
  have first : statesOf (attempt :: attempts) (k + 1) 0 =
      (if attempt.messages = [] then [] else [.streaming]) ++ [.retrying] := by
    simp [statesOf, brought]
  rw [statesUpTo, statesUpTo, List.range_succ_eq_map, List.range_succ_eq_map]
  simp [List.flatMap_map, statesOf_succ, first]

end

/-- What comes of a stream, or is still to come of it. -/
structure Course (α : Type) where
  items : List (Except Status α)
  states : List StreamState
  connections : Nat
  delays : Nat

namespace Course

instance : Append (Course α) :=
  ⟨fun c d => ⟨c.items ++ d.items, c.states ++ d.states, c.connections + d.connections, c.delays + d.delays⟩⟩

@[simp]
theorem append_def (c d : Course α) :
    c ++ d = ⟨c.items ++ d.items, c.states ++ d.states, c.connections + d.connections, c.delays + d.delays⟩ :=
  rfl

def closing (p : Policy) (next : Course α) : Option Status → Course α
  | none => ⟨[], [.completed], 0, 0⟩
  | some status =>
    if p.isTransient status.code then ⟨[], [.retrying], 0, 0⟩ ++ next else ⟨[.error status], [.failed], 0, 0⟩

def receiving (p : Policy) (next : Course α) (started : Bool) (rest : Attempt α) : Course α :=
  ⟨rest.messages.map .ok, if started ∨ rest.messages = [] then [] else [.streaming], 0, 0⟩ ++
    closing p next rest.failure?

def ahead (p : Policy) : List (Attempt α) → Course α
  | [] => ⟨[], [.completed], 1, 0⟩
  | attempt :: attempts =>
    ⟨[], [], 1, 0⟩ ++ receiving p (⟨[], [.connecting], 0, 1⟩ ++ ahead p attempts) false attempt

theorem ahead_eq {p : Policy} {attempts : List (Attempt α)} {k : Nat} (ends : EndsWith p attempts k) :
    ahead p attempts = ⟨itemsUpTo attempts k, statesUpTo attempts k, k + 1, k⟩ := by
  induction attempts generalizing k with
  | nil =>
    -- A connection beyond the list brings nothing and does not fail, so that it is the last.
    cases k with
    | zero => rfl
    | succ k =>
      obtain ⟨_, failed, _⟩ := ends.passing 0 k.succ_pos
      cases failed
  | cons attempt attempts ih =>
    cases k with
    | zero =>
      have ended (status : Status) (failed : attempt.failure? = some status) : ¬p.isTransient status.code :=
        fun transient => ends.last ⟨status, failed, transient⟩
      cases failed : attempt.failure? with
      | none => simp [ahead, receiving, closing, failed, itemsUpTo, statesUpTo, statesOf, brought]
      | some status =>
        simp [ahead, receiving, closing, failed, ended status failed, itemsUpTo, statesUpTo, statesOf, brought]
    | succ k =>
      obtain ⟨⟨status, failed, transient⟩, rest⟩ := endsWith_succ.1 ends
      simp [ahead, receiving, closing, failed, transient, ih rest, itemsUpTo_succ, statesUpTo_succ, Nat.add_comm]

end Course

namespace Stream

-- What is still to come of a stream beside its buffer.
def ahead (p : Policy) (s : Stream α) : Course α :=
  let again := ⟨[], if s.connections = 0 then [] else [.connecting], 0, 0⟩ ++ Course.ahead p s.attempts
  match s.phase with
  | .connecting => again
  | .receiving rest started => Course.receiving p (⟨[], [], 0, 1⟩ ++ again) started rest
  | .sending message rest => ⟨[.ok message], [], 0, 0⟩ ++ Course.receiving p (⟨[], [], 0, 1⟩ ++ again) true rest
  | .sendingFailure status => ⟨[.error status], [], 0, 0⟩
  | .waiting => ⟨[], [], 0, 1⟩ ++ again
  | .stopped => ⟨[], [], 0, 0⟩

def whole (p : Policy) (s : Stream α) : Course α :=
  ⟨s.buffer, s.states, s.connections, s.delays⟩ ++ s.ahead p

variable {p : Policy} {s t : Stream α}

theorem whole_connect (connecting : s.phase = .connecting) : s.connect.whole p = s.whole p := by
  obtain ⟨phase, attempts, buffer, states, connections, delays⟩ := s
  subst connecting
  -- The first connection is not told to the observer.
  rcases attempts with _ | ⟨attempt, attempts⟩
  · by_cases first : connections = 0 <;>
      simp [whole, ahead, connect, Course.ahead, Course.receiving, Course.closing, first]
  · by_cases first : connections = 0 <;>
      simp [whole, ahead, connect, Course.ahead, Course.receiving, first, Nat.add_assoc]

theorem whole_receive {rest : Attempt α} {started : Bool} (receiving : s.phase = .receiving rest started) :
    (receive p s started rest).whole p = s.whole p := by
  obtain ⟨phase, attempts, buffer, states, connections, delays⟩ := s
  subst receiving
  -- The end of the connection, its failure, and a message, which is told to the observer if it is the first.
  rcases rest with _ | ⟨status | message, rest⟩
  · simp [whole, ahead, receive, Course.receiving, Course.closing]
  · by_cases transient : p.isTransient status.code <;>
      simp [whole, ahead, receive, Course.receiving, Course.closing, transient]
  · cases started <;> simp [whole, ahead, receive, Course.receiving]

theorem whole_send? (sends : s.send? p = some t) : t.whole p = s.whole p := by
  obtain ⟨phase, attempts, buffer, states, connections, delays⟩ := s
  cases phase with
  | connecting =>
    cases sends
    exact whole_connect rfl
  | receiving rest started =>
    cases sends
    exact whole_receive rfl
  | sending message rest =>
    obtain ⟨_, ⟨⟩⟩ := Option.ite_none_right_eq_some.1 sends
    simp [whole, ahead]
  | sendingFailure status =>
    obtain ⟨_, ⟨⟩⟩ := Option.ite_none_right_eq_some.1 sends
    simp [whole, ahead]
  | waiting => cases sends
  | stopped => cases sends

theorem whole_wake (waits : s.phase.isWaiting) : s.wake.whole p = s.whole p := by
  cases waiting : s.phase with
  | waiting => simp [whole, ahead, wake, waiting, Nat.add_assoc]
  | connecting | receiving | sending | sendingFailure | stopped => simp [waiting, Phase.isWaiting] at waits

theorem whole_take {item : Except Status α} {buffer : List (Except Status α)} (listed : s.buffer = item :: buffer) :
    s.whole p = ⟨[item], [], 0, 0⟩ ++ whole p { s with buffer } := by
  simp [whole, ahead, listed]

end Stream

/-- What can happen to a stream that is read, with the items that the reader takes. -/
inductive Step (p : Policy) : Stream α → List (Except Status α) → Stream α → Prop
  | send {s t : Stream α} : s.send? p = some t → Step p s [] t
  | wake {s : Stream α} : s.phase.isWaiting → Step p s [] s.wake
  | take {s : Stream α} {item : Except Status α} {buffer : List (Except Status α)} :
    s.buffer = item :: buffer → Step p s [item] { s with buffer }

inductive Run (p : Policy) : Stream α → List (Except Status α) → Stream α → Prop
  | refl (s : Stream α) : Run p s [] s
  | step {s t u : Stream α} {items more : List (Except Status α)} :
    Step p s items t → Run p t more u → Run p s (items ++ more) u

section

variable {p : Policy} {s t u : Stream α} {items more : List (Except Status α)}

def Stream.Ended (s : Stream α) : Prop :=
  s.phase = .stopped ∧ s.buffer = []

-- A sender that cannot move while there is room in the buffer waits or has stopped.
theorem Stream.stopped_of_blocked {s : Stream α} (blocked : s.send? p = none) (empty : s.buffer = [])
    (busy : ¬s.phase.isWaiting) : s.phase = .stopped := by
  cases phase : s.phase with
  | stopped => rfl
  | waiting => simp [phase, Phase.isWaiting] at busy
  | connecting | receiving | sending | sendingFailure => simp [send?, phase, empty, bufferSize] at blocked

theorem Stream.whole_of_ended (ended : s.Ended) : s.whole p = ⟨[], s.states, s.connections, s.delays⟩ := by
  simp [whole, ahead, ended.1, ended.2]

theorem Step.whole (step : Step p s items t) : s.whole p = ⟨items, [], 0, 0⟩ ++ t.whole p := by
  cases step with
  | send sends => simp [Stream.whole_send? sends]
  | wake waits => simp [Stream.whole_wake waits]
  | take listed => exact Stream.whole_take listed

theorem Step.distance_lt (step : Step p s items t) : t.distance < s.distance := by
  cases step with
  | send sends => exact Stream.distance_send? sends
  | wake waits => exact Stream.distance_wake waits
  | take listed => simp [Stream.distance, listed]

theorem Run.whole (run : Run p s items t) : s.whole p = ⟨items, [], 0, 0⟩ ++ t.whole p := by
  induction run with
  | refl s => simp
  | step step _ ih => simp [step.whole, ih]

theorem run_readAll (p : Policy) (s : Stream α) :
    Run p s (s.readAll p).1 (s.readAll p).2 ∧ (s.readAll p).2.Ended := by
  fun_induction Stream.readAll p s with
  | case1 s next sends ih => exact ⟨ih.1.step (.send sends), ih.2⟩
  | case2 s blocked item buffer listed items last read ih =>
    rw [read] at ih
    exact ⟨ih.1.step (.take listed), ih.2⟩
  | case3 s blocked empty waits ih => exact ⟨ih.1.step (.wake waits), ih.2⟩
  | case4 s blocked empty busy => exact ⟨.refl s, s.stopped_of_blocked blocked empty busy, empty⟩

theorem Step.dropped (step : Step p s items t) (stopped : s.phase = .stopped) :
    t.phase = .stopped ∧ t.connections = s.connections ∧ t.states = s.states := by
  cases step with
  | send sends => simp [Stream.send?, stopped] at sends
  | wake waits => simp [Phase.isWaiting, stopped] at waits
  | take listed => exact ⟨stopped, rfl, rfl⟩

theorem Run.dropped (run : Run p s items t) (stopped : s.phase = .stopped) :
    t.connections = s.connections ∧ t.states = s.states := by
  induction run with
  | refl s => exact ⟨rfl, rfl⟩
  | step step _ ih =>
    obtain ⟨still, connections, states⟩ := step.dropped stopped
    rw [← connections, ← states]
    exact ih still

theorem Stream.whole_start {attempts : List (Attempt α)} {k : Nat} (ends : EndsWith p attempts k) :
    (start attempts).whole p = ⟨itemsUpTo attempts k, statesUpTo attempts k, k + 1, k⟩ := by
  simp [whole, start, ahead, Course.ahead_eq ends]

theorem Run.ends {attempts : List (Attempt α)} {k : Nat} (run : Run p (.start attempts) items t)
    (ends : EndsWith p attempts k) (ended : t.Ended) :
    items = itemsUpTo attempts k ∧ t.states = statesUpTo attempts k ∧ t.connections = k + 1 ∧ t.delays = k := by
  have whole := run.whole
  rw [Stream.whole_start ends, Stream.whole_of_ended ended] at whole
  simpa [eq_comm] using whole

end

/-- A stream connects until a connection does not fail in a way that may pass. Its reader gets the messages of all
connections and the failure of the last, however the steps of reader, sender and clock come one after another, which
they cannot do for ever; once the reader has dropped the stream, nothing is connected or told any more. -/
theorem connects_until_last (p : Policy) (attempts : List (Attempt α)) : ∃ k, EndsWith p attempts k ∧
    readToEnd p attempts = ⟨itemsUpTo attempts k, statesUpTo attempts k, k + 1, k * p.delay⟩ ∧
    (WellFounded fun t s : Stream α => ∃ items, Step p s items t) ∧
    ∀ items t, Run p (.start attempts) items t →
      (∃ more u, Run p t more u ∧ u.Ended) ∧
      (t.Ended → items = itemsUpTo attempts k ∧ t.states = statesUpTo attempts k ∧ t.connections = k + 1 ∧
        t.delays = k) ∧
      ∀ more u, Run p t.drop more u → u.connections = t.connections ∧ u.states = t.states := by
  obtain ⟨k, ends⟩ := exists_endsWith p attempts
  refine ⟨k, ends, ?_, ?_, fun items t run => ⟨⟨_, _, run_readAll p t⟩, run.ends ends, ?_⟩⟩
  · obtain ⟨run, ended⟩ := run_readAll p (.start attempts)
    obtain ⟨items, states, connections, delays⟩ := run.ends ends ended
    simp only [readToEnd, Stream.elapsed, items, states, connections, delays]
  · exact Subrelation.wf (fun ⟨_, step⟩ => step.distance_lt) (measure Stream.distance).wf
  · intro more u later
    exact later.dropped rfl

end Protogen.Rpc.Retry
