import Protogen.Proofs.Wire.Scalars

set_option autoImplicit false

namespace Protogen.Wire

/-- A call to a writer. -/
inductive Call where
  | varint (n : Nat)
  | scalar (v : Scalar)
  | fork
  | join

/-- What is written between two calls: values, and children that hold such in turn. -/
inductive Tree where
  | varint (n : Nat)
  | scalar (v : Scalar)
  | child (content : List Tree)

namespace Tree

mutual

def calls : Tree → List Call
  | varint n => [.varint n]
  | scalar v => [.scalar v]
  | child content => .fork :: (callsOf content ++ [.join])

def callsOf : List Tree → List Call
  | [] => []
  | t :: ts => calls t ++ callsOf ts

end

mutual

def bytes : Tree → List UInt8
  | varint n => varintBytes n
  | scalar v => v.bytes
  | child content => Bytes.delimited (bytesOf content)

def bytesOf : List Tree → List UInt8
  | [] => []
  | t :: ts => bytes t ++ bytesOf ts

end

theorem bytesOf_append (ts ts' : List Tree) : bytesOf (ts ++ ts') = bytesOf ts ++ bytesOf ts' := by
  induction ts with
  | nil => rfl
  | cons t ts ih => rw [List.cons_append, bytesOf, bytesOf, ih, List.append_assoc]

end Tree

namespace Writer

variable {w w' : Writer} {start n : Nat} {forks : List Nat}

def call (w : Writer) : Call → Writer
  | .varint n => w.varint n
  | .scalar v => v.write w
  | .fork => w.fork
  | .join => w.join

def run (w : Writer) (calls : List Call) : Writer :=
  calls.foldl call w

theorem run_append (w : Writer) (first second : List Call) : w.run (first ++ second) = (w.run first).run second :=
  List.foldl_append

theorem ext_written (bytes : w.written = w'.written) (opened : w.forks = w'.forks) : w = w' := by
  obtain ⟨data, forks⟩ := w
  obtain ⟨data', forks'⟩ := w'
  have same : data = data' := ByteArray.ext (Array.ext' bytes)
  have same' : forks = forks' := opened
  rw [same, same']

theorem written_varint (w : Writer) (n : Nat) : (w.varint n).written = w.written ++ varintBytes n :=
  w.written_push _

theorem written_fork (w : Writer) : w.fork.written = w.written := rfl

theorem length_written (w : Writer) : w.written.length = w.data.size :=
  Array.length_toList

-- What follows the beginning of the innermost child gets its length in front.
theorem written_join (opened : w.forks = start :: forks) :
    w.join.written = w.written.take start ++ Bytes.delimited (w.written.drop start) := by
  have front : (w.data.extract 0 start).data.toList = w.written.take start := by
    simp only [ByteArray.data_extract, Array.toList_extract, List.extract_eq_take_drop]
    rfl
  have child : (w.data.extract start w.data.size).data.toList = w.written.drop start := by
    simp only [ByteArray.data_extract, Array.toList_extract, List.extract_eq_take_drop]
    refine List.take_of_length_le ?_
    rw [List.length_drop]
    exact Nat.le_refl _
  simp only [join, opened]
  rw [written_bytes, child, ← front]
  rfl

theorem forks_join (w : Writer) : w.join.forks = w.forks.tail := by
  unfold join
  split
  next none => rw [none]; rfl
  next opened => rw [opened]; rfl

theorem join_of_closed (closed : w.forks = []) : w.join = w := by
  simp only [join, closed]

theorem written_child {bytes : List UInt8} (inner : w'.written = w.written ++ bytes)
    (opened : w'.forks = w.fork.forks) : w'.join.written = w.written ++ Bytes.delimited bytes := by
  have start : w'.forks = w.written.length :: w.forks := by
    rw [opened, length_written]
    rfl
  rw [written_join start, inner, List.take_left, List.drop_left]

-- Forks that are open stay where they are: a child is complete before its length is put in front of it.
mutual

theorem run_tree (w : Writer) (t : Tree) :
    (w.run t.calls).written = w.written ++ t.bytes ∧ (w.run t.calls).forks = w.forks := by
  cases t with
  | varint n => exact ⟨written_varint w n, rfl⟩
  | scalar v => exact ⟨v.written_write w, v.forks_write w⟩
  | child content =>
    obtain ⟨inner, opened⟩ := run_trees w.fork content
    have last : w.run (Tree.child content).calls = (w.fork.run (Tree.callsOf content)).join :=
      run_append w.fork (Tree.callsOf content) [.join]
    rw [last, Tree.bytes]
    refine ⟨written_child inner opened, ?_⟩
    rw [forks_join, opened]
    rfl

theorem run_trees (w : Writer) (ts : List Tree) :
    (w.run (Tree.callsOf ts)).written = w.written ++ Tree.bytesOf ts ∧
      (w.run (Tree.callsOf ts)).forks = w.forks := by
  cases ts with
  | nil => exact ⟨(List.append_nil _).symm, rfl⟩
  | cons t ts =>
    obtain ⟨first, opened⟩ := run_tree w t
    obtain ⟨rest, opened'⟩ := run_trees (w.run t.calls) ts
    rw [Tree.callsOf, run_append]
    refine ⟨?_, opened'.trans opened⟩
    rw [rest, first, List.append_assoc, Tree.bytesOf]

end

theorem run_child (w : Writer) (content : List Tree) :
    w.run (Tree.child content).calls = w.bytes (run .empty (Tree.callsOf content)).data := by
  obtain ⟨inner, opened⟩ := run_tree w (.child content)
  refine ext_written ?_ opened
  have alone := (run_trees .empty content).1
  rw [inner, written_bytes, Tree.bytes]
  rw [written_empty, List.nil_append] at alone
  rw [← alone]
  rfl

/-- Children that are open begin one after the other, none behind what is written. -/
structure Ordered (w : Writer) : Prop where
  sorted : w.forks.Pairwise fun inner outer => outer ≤ inner
  inside : ∀ start ∈ w.forks, start ≤ w.written.length

-- Where the innermost open child begins, or else where writing goes on.
def floor (w : Writer) : Nat :=
  w.forks.head?.getD w.written.length

theorem front_call (w : Writer) (c : Call) : w.written.take w.floor <+: (w.call c).written := by
  cases c with
  | varint n =>
    rw [Writer.call, written_varint]
    exact (List.take_prefix _ _).trans (List.prefix_append _ _)
  | scalar v =>
    rw [Writer.call, v.written_write]
    exact (List.take_prefix _ _).trans (List.prefix_append _ _)
  | fork => exact List.take_prefix _ _
  | join =>
    rw [Writer.call]
    cases opened : w.forks with
    | nil =>
      rw [join_of_closed opened]
      exact List.take_prefix _ _
    | cons start forks =>
      have begins : w.floor = start := by
        rw [floor, opened]
        rfl
      rw [begins, written_join opened]
      exact List.prefix_append _ _

theorem ordered_empty : Writer.empty.Ordered :=
  ⟨.nil, nofun⟩

namespace Ordered

theorem floor_le (ordered : w.Ordered) : w.floor ≤ w.written.length := by
  unfold floor
  cases opened : w.forks with
  | nil => exact Nat.le_refl _
  | cons start forks =>
    refine ordered.inside start ?_
    rw [opened]
    exact List.mem_cons_self

theorem extend {bytes : List UInt8} (ordered : w.Ordered) (longer : w'.written = w.written ++ bytes)
    (same : w'.forks = w.forks) : w'.Ordered := by
  refine ⟨same ▸ ordered.sorted, fun start member => ?_⟩
  have := ordered.inside start (same ▸ member)
  rw [longer, List.length_append]
  omega

theorem fork (ordered : w.Ordered) : w.fork.Ordered := by
  have inside : ∀ start ∈ w.forks, start ≤ w.data.size := by
    rw [← length_written]
    exact ordered.inside
  refine ⟨List.pairwise_cons.2 ⟨inside, ordered.sorted⟩, ?_⟩
  rw [written_fork, length_written]
  exact List.forall_mem_cons.2 ⟨Nat.le_refl _, inside⟩

theorem join (ordered : w.Ordered) : w.join.Ordered := by
  cases opened : w.forks with
  | nil => rwa [join_of_closed opened]
  | cons start forks =>
    have sorted := ordered.sorted
    rw [opened, List.pairwise_cons] at sorted
    have rest : w.join.forks = forks := by
      rw [forks_join, opened]
      rfl
    refine ⟨rest ▸ sorted.2, fun outer member => ?_⟩
    -- The outer children begin no later than the one that is closed, and its front stays.
    have before := sorted.1 outer (rest ▸ member)
    have inside : start ≤ w.written.length := by
      apply ordered.inside
      rw [opened]
      exact List.mem_cons_self
    rw [written_join opened, List.length_append, List.length_take_of_le inside]
    omega

theorem call (ordered : w.Ordered) (c : Call) : (w.call c).Ordered := by
  cases c with
  | varint n => exact ordered.extend (written_varint w n) rfl
  | scalar v => exact ordered.extend (v.written_write w) (v.forks_write w)
  | fork => exact ordered.fork
  | join => exact ordered.join

theorem run (ordered : w.Ordered) (calls : List Call) : (w.run calls).Ordered := by
  induction calls generalizing w with
  | nil => exact ordered
  | cons c calls ih => exact ih (ordered.call c)

theorem take_call (ordered : w.Ordered) (c : Call) (low : n ≤ w.floor) :
    (w.call c).written.take n = w.written.take n := by
  obtain ⟨more, split⟩ := w.front_call c
  have long : n ≤ (w.written.take w.floor).length := by
    rw [List.length_take_of_le ordered.floor_le]
    exact low
  rw [← split, List.take_append_of_le_length long, List.take_take, Nat.min_eq_left low]

-- Bytes stay as long as the innermost open child begins no earlier than they end.
theorem take_run (ordered : w.Ordered) (calls : List Call)
    (low : ∀ i < calls.length, n ≤ (w.run (calls.take i)).floor) :
    (w.run calls).written.take n = w.written.take n := by
  induction calls generalizing w with
  | nil => rfl
  | cons c calls ih =>
    have first := ordered.take_call c (low 0 (Nat.zero_lt_succ _))
    have rest := ih (ordered.call c) fun i before => low (i + 1) (Nat.succ_lt_succ before)
    exact rest.trans first

end Ordered

/-- Trees are written in order, each child as the bytes that a writer of its own makes of it, behind the shortest
number that counts them. After any calls at all, the children that are open begin in order and inside what is
written, to join without one changes nothing, and what stands in front of the innermost one stays. -/
theorem delimited_in_place :
    (∀ (w : Writer) (ts : List Tree), (w.run (Tree.callsOf ts)).written = w.written ++ Tree.bytesOf ts ∧
      (w.run (Tree.callsOf ts)).forks = w.forks) ∧
    (∀ (w : Writer) (content : List Tree),
      w.run (Tree.child content).calls = w.bytes (run .empty (Tree.callsOf content)).data) ∧
    (∀ n < 18446744073709551616, Shortest n (varintBytes n)) ∧
    ∀ calls : List Call, (run .empty calls).Ordered ∧
      ((run .empty calls).forks = [] → (run .empty calls).join = run .empty calls) ∧
      (∀ c, (run .empty calls).written.take (run .empty calls).floor <+: ((run .empty calls).call c).written) ∧
      ∀ more n, (∀ i < more.length, n ≤ ((run .empty calls).run (more.take i)).floor) →
        ((run .empty calls).run more).written.take n = (run .empty calls).written.take n :=
  ⟨run_trees, run_child, fun _ word => shortest_varintBytes word, fun calls =>
    have ordered := ordered_empty.run calls
    ⟨ordered, join_of_closed, front_call _, fun more _ low => ordered.take_run more low⟩⟩

-- A child of two bytes, and a child that is begun and not completed.
theorem delimited_in_place_pair :
    (run .empty (Tree.callsOf [.varint 10, .child [.varint 8, .varint 1]])).written = [10, 2, 8, 1] ∧
      Shortest 2 (varintBytes 2) ∧
      (∀ i < 2, 4 ≤ ((run .empty [.join, .scalar ⟨.fixed32, 7⟩, .fork]).run
        ([.fork, .scalar ⟨.bool, true⟩].take i)).floor) ∧
      ((run .empty [.join, .scalar ⟨.fixed32, 7⟩, .fork]).run [.fork, .scalar ⟨.bool, true⟩]).written.take 4 =
        [7, 0, 0, 0] := by
  have tree := (delimited_in_place.1 .empty [.varint 10, .child [.varint 8, .varint 1]]).1
  have bytes : Tree.bytesOf [.varint 10, .child [.varint 8, .varint 1]] = [10, 2, 8, 1] := by cbv
  have low : ∀ i < 2, 4 ≤ ((run .empty [.join, .scalar ⟨.fixed32, 7⟩, .fork]).run
      ([.fork, .scalar ⟨.bool, true⟩].take i)).floor := by decide
  have kept := (delimited_in_place.2.2.2 [.join, .scalar ⟨.fixed32, 7⟩, .fork]).2.2.2
    [.fork, .scalar ⟨.bool, true⟩] 4 low
  exact ⟨tree.trans bytes, delimited_in_place.2.2.1 2 (by decide), low, kept⟩

end Writer

end Protogen.Wire
