import Mathlib.Data.List.Induction
import Mathlib.Data.List.Nodup
import Mathlib.Data.List.Perm.Basic
import Protogen.Rpc.Loader.Basic

set_option autoImplicit false

namespace Protogen.Rpc

variable {K V : Type}

def Outcome.resultAt (o : Outcome V) (i : Nat) : Except LoadError V :=
  match o with
  | .answered results => results.getD i (.error (.missingKey ("#" ++ toString i)))
  | .failed s => .error (.batch s)
  | .lost => .error .cancelled

theorem Outcome.getElem?_results {n i : Nat} (o : Outcome V) (lt : i < n) :
    (o.results n)[i]? = some (o.resultAt i) := by
  cases o with
  | answered answers => simp [results, resultAt, getElem?_align, LoadError.missingAt, lt]
  | failed s => simp [results, resultAt, lt]
  | lost => simp [results, resultAt, lt]

section

variable {α β : Type}

theorem exists_splitOnP_snoc (p : α → Bool) (xs : List α) : ∃ past last, xs.splitOnP p = past ++ [last] ∧
    ∀ x, p x = false → (xs ++ [x]).splitOnP p = past ++ [last ++ [x]] := by
  induction xs with
  | nil => exact ⟨[], [], List.splitOnP_nil, fun x inner => List.splitOnP_eq_singleton (by simpa using inner)⟩
  | cons y ys ih =>
    obtain ⟨past, last, split, grow⟩ := ih
    by_cases apart : p y
    next =>
      refine ⟨[] :: past, last, ?_, fun x inner => ?_⟩
      · simp [List.splitOnP_cons_eq_if_modifyHead, apart, split]
      · simp [List.splitOnP_cons_eq_if_modifyHead, apart, grow x inner]
    next =>
      -- The element joins the first part, which is the last as well where nothing parts the rest.
      rcases past with _ | ⟨first, past⟩
      · refine ⟨[], y :: last, ?_, fun x inner => ?_⟩
        · simp [List.splitOnP_cons_eq_if_modifyHead, apart, split]
        · simp [List.splitOnP_cons_eq_if_modifyHead, apart, grow x inner]
      · refine ⟨(y :: first) :: past, last, ?_, fun x inner => ?_⟩
        · simp [List.splitOnP_cons_eq_if_modifyHead, apart, split]
        · simp [List.splitOnP_cons_eq_if_modifyHead, apart, grow x inner]

theorem lookup_zip [BEq α] [LawfulBEq α] {keys : List α} {values : List β} {i : Nat} {key : α} {value : β}
    (nodup : keys.Nodup) (keyAt : keys[i]? = some key) (valueAt : values[i]? = some value) :
    (keys.zip values).lookup key = some value := by
  induction keys generalizing values i with
  | nil => simp at keyAt
  | cons k keys ih =>
    rcases values with _ | ⟨v, values⟩
    · simp at valueAt
    obtain ⟨fresh, nodup⟩ := List.nodup_cons.1 nodup
    cases i with
    | zero =>
      cases keyAt
      cases valueAt
      simp
    | succ i =>
      have other : key ≠ k := fun same => fresh (same ▸ List.mem_of_getElem? keyAt)
      rw [List.zip_cons_cons, List.lookup_cons, beq_eq_false_iff_ne.2 other]
      exact ih nodup keyAt valueAt

theorem lookup_filter_ne [BEq α] [LawfulBEq α] {xs : List (α × β)} {key other : α} (ne : key ≠ other) :
    (xs.filter (·.1 != other)).lookup key = xs.lookup key := by
  induction xs with
  | nil => rfl
  | cons x xs ih =>
    obtain ⟨k, v⟩ := x
    by_cases same : k = other
    next => simp [same, ih, List.lookup_cons, beq_false_of_ne ne]
    next => simp [same, ih, List.lookup_cons]

theorem lookup_of_nodup [BEq α] [LawfulBEq α] {xs : List (α × β)} {key : α} {value : β}
    (nodup : (xs.map Prod.fst).Nodup) (listed : (key, value) ∈ xs) : xs.lookup key = some value := by
  obtain ⟨before, after, rfl⟩ := List.append_of_mem listed
  rw [List.map_append, List.map_cons, List.nodup_middle, List.nodup_cons] at nodup
  refine List.lookup_eq_some_iff.2 ⟨before, after, rfl, fun p member => bne_iff_ne.2 ?_⟩
  rintro rfl
  exact nodup.1 (List.mem_append_left _ (List.mem_map.2 ⟨p, member, rfl⟩))

theorem perm_cons_filter_ne [BEq α] [LawfulBEq α] {xs : List (α × β)} {key : α} {value : β}
    (nodup : (xs.map Prod.fst).Nodup) (listed : (key, value) ∈ xs) :
    xs.Perm ((key, value) :: xs.filter (·.1 != key)) := by
  obtain ⟨before, after, rfl⟩ := List.append_of_mem listed
  rw [List.map_append, List.map_cons, List.nodup_middle, List.nodup_cons, ← List.map_append] at nodup
  have others : (before ++ after).filter (·.1 != key) = before ++ after :=
    List.filter_eq_self.2 fun p member => bne_iff_ne.2 fun same => nodup.1 (List.mem_map.2 ⟨p, member, same⟩)
  have left : (before ++ (key, value) :: after).filter (·.1 != key) = before ++ after := by
    rw [← others]
    simp
  rw [left]
  exact List.perm_middle

end

namespace Loader

def Event.isDispatch : Event K V → Bool
  | .dispatch => true
  | _ => false

def Event.key? : Event K V → Option K
  | .load key => some key
  | _ => none

def loaded (events : List (Event K V)) : List K :=
  events.filterMap Event.key?

/-- The keys that are loaded before the first dispatch, between two dispatches, and after the last. -/
def groups (events : List (Event K V)) : List (List K) :=
  (events.splitOnP Event.isDispatch).map loaded

section

variable {events : List (Event K V)}

theorem loaded_append (events more : List (Event K V)) : loaded (events ++ more) = loaded events ++ loaded more :=
  List.filterMap_append

theorem loaded_load (key : K) : loaded [(.load key : Event K V)] = [key] :=
  rfl

theorem loaded_snoc (event : Event K V) (keyless : event.key? = none) :
    loaded (events ++ [event]) = loaded events := by
  simp [loaded, keyless]

theorem groups_dispatch (events : List (Event K V)) : groups (events ++ [.dispatch]) = groups events ++ [[]] := by
  have apart : (Event.dispatch : Event K V).isDispatch = true := rfl
  simp [groups, List.splitOnP_append_cons events [] apart, loaded]

theorem groups_snoc (event : Event K V) {past : List (List K)} {last : List K} (quiet : event.isDispatch = false)
    (split : groups events = past ++ [last]) : groups (events ++ [event]) = past ++ [last ++ loaded [event]] := by
  obtain ⟨before, rest, whole, grow⟩ := exists_splitOnP_snoc Event.isDispatch events
  have same : before.map loaded = past ∧ loaded rest = last := by simpa [groups, whole] using split
  simp [groups, grow event quiet, loaded_append, same]

end

-- The loads that the next dispatch takes.
def waiting (l : Loader K V) : List (Nat × K) :=
  l.queue.getD []

section

variable {l : Loader K V} {events : List (Event K V)}

theorem load_eq (l : Loader K V) (key : K) : l.load key =
    { l with
      loads := l.loads + 1
      queue := some (l.waiting ++ [(l.loads, key)])
      scheduled := if l.queue.isSome then l.scheduled else l.scheduled + 1 } := by
  cases queue : l.queue <;> simp [load, waiting, queue]

theorem dispatch_idle (slot : l.scheduled = 0) : l.dispatch = l := by
  simp [dispatch, slot]

theorem dispatch_empty (empty : l.queue = none) : l.dispatch = { l with scheduled := l.scheduled - 1 } := by
  by_cases idle : l.scheduled = 0
  next =>
    rw [dispatch_idle idle]
    obtain ⟨loads, queue, scheduled, calls, inFlight, settled⟩ := l
    cases idle
    rfl
  next => simp [dispatch, idle, empty]

theorem dispatch_eq {waiting : List (Nat × K)} (due : l.scheduled ≠ 0) (queue : l.queue = some waiting) :
    l.dispatch =
      { l with
        queue := none
        scheduled := l.scheduled - 1
        calls := l.calls ++ [waiting.map (·.2)]
        inFlight := l.inFlight ++ [(l.calls.length, waiting.map (·.1))] } := by
  simp [dispatch, due, queue]

theorem finish_eq {c : Nat} {ids : List Nat} (found : l.inFlight.lookup c = some ids) (outcome : Outcome V) :
    l.finish c outcome =
      { l with
        inFlight := l.inFlight.filter (·.1 != c)
        settled := l.settled ++ ids.zip (outcome.results ids.length) } := by
  simp [finish, found]

theorem finish_idle {c : Nat} (missing : l.inFlight.lookup c = none) (outcome : Outcome V) :
    l.finish c outcome = l := by
  simp [finish, missing]

/-- What holds after some events: what the queue and the calls hold, and where each load is. -/
structure Consistent (events : List (Event K V)) (l : Loader K V) : Prop where
  slot : l.scheduled = if l.queue.isSome then 1 else 0
  opened : l.queue ≠ some []
  grouped : ∃ past, groups events = past ++ [l.waiting.map Prod.snd] ∧ l.calls = past.filter (!·.isEmpty)
  keys : l.calls.flatten ++ l.waiting.map Prod.snd = loaded events
  loads : l.loads = l.calls.flatten.length + l.waiting.length
  queued : l.waiting.map Prod.fst = List.range' l.calls.flatten.length l.waiting.length
  made : ∀ c ids, (c, ids) ∈ l.inFlight →
    ∃ keys, l.calls[c]? = some keys ∧ ids = List.range' (l.calls.take c).flatten.length keys.length
  distinct : (l.inFlight.map Prod.fst).Nodup
  placed : (l.settled.map Prod.fst ++ (l.inFlight.flatMap Prod.snd ++ l.waiting.map Prod.fst)).Perm
    (List.range l.loads)

namespace Consistent

theorem empty : Consistent [] (empty : Loader K V) where
  slot := rfl
  opened := nofun
  grouped := ⟨[], rfl, rfl⟩
  keys := rfl
  loads := rfl
  queued := rfl
  made := nofun
  distinct := .nil
  placed := .nil

theorem load (consistent : Consistent events l) (key : K) : Consistent (events ++ [.load key]) (l.load key) := by
  obtain ⟨past, split, calls⟩ := consistent.grouped
  have waiting : (l.load key).waiting = l.waiting ++ [(l.loads, key)] := by rw [load_eq]; rfl
  rw [load_eq] at waiting ⊢
  refine {
    slot := ?_
    opened := ?_
    grouped := ⟨past, ?_, calls⟩
    keys := ?_
    loads := ?_
    queued := ?_
    made := consistent.made
    distinct := consistent.distinct
    placed := ?_ }
  · rw [consistent.slot]
    cases l.queue <;> rfl
  · simp
  · rw [waiting, groups_snoc _ rfl split, loaded_load, List.map_append, List.map_singleton]
  · rw [waiting, loaded_append, ← consistent.keys, loaded_load, List.map_append, List.map_singleton, List.append_assoc]
  · rw [waiting, consistent.loads]
    simp [Nat.add_assoc]
  · rw [waiting]
    simp [consistent.queued, List.range'_1_concat, consistent.loads]
  · rw [waiting, List.range_succ, List.map_append, ← List.append_assoc, ← List.append_assoc]
    simpa using consistent.placed.append_right [l.loads]

theorem lt_of_inFlight (consistent : Consistent events l) {c : Nat} (listed : c ∈ l.inFlight.map Prod.fst) :
    c < l.calls.length := by
  obtain ⟨⟨_, ids⟩, member, rfl⟩ := List.mem_map.1 listed
  obtain ⟨keys, made, -⟩ := consistent.made _ ids member
  exact (List.getElem?_eq_some_iff.1 made).1

theorem dispatch (consistent : Consistent events l) : Consistent (events ++ [.dispatch]) l.dispatch := by
  obtain ⟨past, split, calls⟩ := consistent.grouped
  have keys := consistent.keys.trans (loaded_snoc .dispatch rfl).symm
  cases queue : l.queue with
  | none =>
    have empty : l.waiting = [] := by simp [waiting, queue]
    rw [dispatch_idle (by simpa [queue] using consistent.slot)]
    -- The group that ends holds nothing, and makes no call.
    exact { consistent with
      grouped := ⟨past ++ [[]], by simp [groups_dispatch, split, empty], by simp [calls]⟩
      keys }
  | some taken =>
    have waits : l.waiting = taken := by simp [waiting, queue]
    have nonempty : taken ≠ [] := fun bare => consistent.opened (bare ▸ queue)
    have queued := consistent.queued
    have slot : l.scheduled = 1 := by simpa [queue] using consistent.slot
    rw [dispatch_eq (by simp [slot]) queue, slot]
    rw [waits] at split keys queued
    refine {
      slot := rfl
      opened := nofun
      grouped := ⟨past ++ [taken.map Prod.snd], ?_, ?_⟩
      keys := ?_
      loads := ?_
      queued := rfl
      made := fun c ids member => ?_
      distinct := ?_
      placed := ?_ }
    · rw [groups_dispatch, split]
      rfl
    · simp [calls, nonempty]
    · simpa [waiting] using keys
    · rw [consistent.loads, waits]
      simp [waiting]
    · rcases List.mem_append.1 member with earlier | last
      · obtain ⟨keys, made, range⟩ := consistent.made c ids earlier
        have lt := consistent.lt_of_inFlight (List.mem_map_of_mem (f := Prod.fst) earlier)
        refine ⟨keys, by rw [List.getElem?_append_left lt, made], ?_⟩
        rw [List.take_append_of_le_length (Nat.le_of_lt lt), range]
      · cases List.mem_singleton.1 last
        exact ⟨taken.map Prod.snd, by simp, by simp [queued]⟩
    · rw [List.map_append, List.map_singleton]
      have fresh : l.calls.length ∉ l.inFlight.map Prod.fst := fun listed =>
        Nat.lt_irrefl _ (consistent.lt_of_inFlight listed)
      exact List.nodup_middle.2 (List.nodup_cons.2 ⟨by simpa using fresh, by simpa using consistent.distinct⟩)
    · have placed := consistent.placed
      rw [waits] at placed
      simpa [waiting] using placed

theorem finish (consistent : Consistent events l) (c : Nat) (outcome : Outcome V) :
    Consistent (events ++ [.finish c outcome]) (l.finish c outcome) := by
  obtain ⟨past, split, calls⟩ := consistent.grouped
  have keys := consistent.keys.trans (loaded_snoc (.finish c outcome) rfl).symm
  have grouped : groups (events ++ [.finish c outcome]) = past ++ [l.waiting.map Prod.snd] := by
    simp [groups_snoc (.finish c outcome) rfl split, loaded, Event.key?]
  cases found : l.inFlight.lookup c with
  | none =>
    rw [finish_idle found]
    exact { consistent with
      grouped := ⟨past, grouped, calls⟩
      keys }
  | some ids =>
    rw [finish_eq found]
    obtain ⟨before, after, whole, -⟩ := List.lookup_eq_some_iff.1 found
    have listed : (c, ids) ∈ l.inFlight := by simp [whole]
    -- The loads of the call move from those in flight to those that are settled.
    have moved : (l.inFlight.flatMap Prod.snd).Perm (ids ++ (l.inFlight.filter (·.1 != c)).flatMap Prod.snd) := by
      simpa using (perm_cons_filter_ne consistent.distinct listed).flatMap_right Prod.snd
    have rest := List.filter_sublist (p := fun call => call.1 != c) (l := l.inFlight)
    exact { consistent with
      grouped := ⟨past, grouped, calls⟩
      keys
      made := fun c ids member => consistent.made c ids (rest.subset member)
      distinct := consistent.distinct.sublist (rest.map _)
      placed := by
        rw [List.map_append, List.map_fst_zip (Nat.le_of_eq (outcome.length_results _).symm), List.append_assoc]
        refine .trans (.append_left _ ?_) consistent.placed
        rw [← List.append_assoc]
        exact moved.symm.append_right _ }

theorem step (consistent : Consistent events l) (event : Event K V) :
    Consistent (events ++ [event]) (l.step event) := by
  cases event with
  | load key => exact consistent.load key
  | dispatch => exact consistent.dispatch
  | finish c outcome => exact consistent.finish c outcome

end Consistent

theorem consistent_run (events : List (Event K V)) : Consistent events (run events) := by
  -- An event comes after all others, so that the last one is taken off first.
  induction events using List.reverseRecOn with
  | nil => exact .empty
  | append_singleton events event ih =>
    rw [run, List.foldl_append]
    exact ih.step event

theorem settled_step (l : Loader K V) (event : Event K V) : ∃ more, (l.step event).settled = l.settled ++ more := by
  cases event with
  | load key => exact ⟨[], by simp [step, load_eq]⟩
  | dispatch =>
    refine ⟨[], ?_⟩
    simp only [step, dispatch]
    split
    · simp
    · split <;> simp
  | finish c outcome =>
    cases found : l.inFlight.lookup c with
    | none => exact ⟨[], by simp [step, finish_idle found]⟩
    | some ids => exact ⟨ids.zip (outcome.results ids.length), by simp [step, finish_eq found]⟩

theorem result?_foldl {n : Nat} {result : Except LoadError V} (settled : l.result? n = some result)
    (later : List (Event K V)) : (later.foldl step l).result? n = some result := by
  induction later generalizing l with
  | nil => exact settled
  | cons event later ih =>
    obtain ⟨more, grown⟩ := l.settled_step event
    refine ih ?_
    rw [result?, grown, List.lookup_append, ← result?, settled, Option.some_or]

theorem Consistent.result?_finish (consistent : Consistent events l) {c i n : Nat} {ids : List Nat}
    (listed : (c, ids) ∈ l.inFlight) (place : ids[i]? = some n) (outcome : Outcome V) :
    l.result? n = none ∧ (l.finish c outcome).result? n = some (outcome.resultAt i) := by
  obtain ⟨lt, -⟩ := List.getElem?_eq_some_iff.1 place
  obtain ⟨keys, -, rfl⟩ := consistent.made c ids listed
  -- No load is in two places, so one in flight is not settled.
  obtain ⟨-, -, apart⟩ := List.nodup_append.1 (consistent.placed.nodup_iff.2 List.nodup_range)
  have member : n ∈ l.inFlight.flatMap Prod.snd :=
    List.mem_flatMap.2 ⟨_, listed, List.mem_of_getElem? place⟩
  have unsettled : l.result? n = none := List.lookup_eq_none_iff.2 fun p settled => bne_iff_ne.2 fun same =>
    apart p.1 (List.mem_map_of_mem settled) n (List.mem_append_left _ member) same.symm
  refine ⟨unsettled, ?_⟩
  rw [finish_eq (lookup_of_nodup consistent.distinct listed), result?, List.lookup_append, ← result?, unsettled,
    Option.none_or]
  exact lookup_zip (List.nodup_range' ..) place (outcome.getElem?_results lt)

-- The loaders differ at most in whether and how call `c`, which answers `ids`, has ended.
structure Apart (c : Nat) (ids : List Nat) (l l' : Loader K V) : Prop where
  loads : l.loads = l'.loads
  queue : l.queue = l'.queue
  scheduled : l.scheduled = l'.scheduled
  calls : l.calls = l'.calls
  others : l.inFlight.filter (·.1 != c) = l'.inFlight.filter (·.1 != c)
  own : ∀ loads, l.inFlight.lookup c = some loads ∨ l'.inFlight.lookup c = some loads → loads = ids
  made : c < l.calls.length
  results : ∀ n ∉ ids, l.result? n = l'.result? n

namespace Apart

variable {l' : Loader K V} {c : Nat} {ids : List Nat}

theorem symm (apart : Apart c ids l l') : Apart c ids l' l :=
  ⟨apart.loads.symm, apart.queue.symm, apart.scheduled.symm, apart.calls.symm, apart.others.symm,
    fun loads found => apart.own loads found.symm, apart.calls ▸ apart.made,
    fun n other => (apart.results n other).symm⟩

theorem load (apart : Apart c ids l l') (key : K) : Apart c ids (l.load key) (l'.load key) := by
  have waiting : l.waiting = l'.waiting := congrArg (·.getD []) apart.queue
  rw [load_eq, load_eq]
  exact { apart with
    loads := congrArg (· + 1) apart.loads
    queue := by simp only [waiting, apart.loads]
    scheduled := by simp only [apart.queue, apart.scheduled] }

theorem dispatch (apart : Apart c ids l l') : Apart c ids l.dispatch l'.dispatch := by
  by_cases idle : l.scheduled = 0
  next =>
    rw [dispatch_idle idle, dispatch_idle (apart.scheduled ▸ idle)]
    exact apart
  next =>
    cases queue : l.queue with
    | none =>
      rw [dispatch_empty queue, dispatch_empty (apart.queue ▸ queue)]
      exact { apart with scheduled := congrArg (· - 1) apart.scheduled }
    | some taken =>
      rw [dispatch_eq idle queue, dispatch_eq (apart.scheduled ▸ idle) (apart.queue ▸ queue)]
      -- The call that is made comes after call `c`.
      have last : c ≠ l.calls.length := Nat.ne_of_lt apart.made
      have other : [(l.calls.length, taken.map (·.1))].lookup c = none := by simp [last]
      exact { apart with
        queue := rfl
        scheduled := congrArg (· - 1) apart.scheduled
        calls := by rw [apart.calls]
        others := by simp only [List.filter_append, apart.others, apart.calls]
        own := by simpa only [List.lookup_append, ← apart.calls, other, Option.or_none] using apart.own
        made := by simpa using Nat.lt_succ_of_lt apart.made }

theorem finish_own (apart : Apart c ids l l') (outcome : Outcome V) : Apart c ids (l.finish c outcome) l' := by
  cases found : l.inFlight.lookup c with
  | none =>
    rw [finish_idle found]
    exact apart
  | some loads =>
    cases apart.own loads (.inl found)
    have gone : (l.inFlight.filter (·.1 != c)).lookup c = none :=
      List.lookup_eq_none_iff.2 fun p kept => bne_iff_ne.2 fun same => bne_iff_ne.1 (List.mem_filter.1 kept).2 same.symm
    rw [finish_eq found]
    exact { apart with
      others := by simpa using apart.others
      own := fun loads found => apart.own loads (.inr (found.resolve_left (by simp [gone])))
      results := fun n other => by
        have absent : (ids.zip (outcome.results ids.length)).lookup n = none :=
          List.lookup_eq_none_iff.2 fun p given => bne_iff_ne.2 fun same =>
            other (same ▸ (List.of_mem_zip given).1)
        rw [result?, List.lookup_append, absent, Option.or_none, ← result?, apart.results n other] }

theorem finish_other (apart : Apart c ids l l') {d : Nat} (ne : d ≠ c) (outcome : Outcome V) :
    Apart c ids (l.finish d outcome) (l'.finish d outcome) := by
  have same : l.inFlight.lookup d = l'.inFlight.lookup d := by
    rw [← lookup_filter_ne ne, apart.others, lookup_filter_ne ne]
  cases found : l.inFlight.lookup d with
  | none =>
    rw [finish_idle found, finish_idle (same ▸ found)]
    exact apart
  | some loads =>
    rw [finish_eq found, finish_eq (same ▸ found)]
    exact { apart with
      others := by rw [List.filter_comm, apart.others, List.filter_comm]
      own := by simpa only [lookup_filter_ne ne.symm] using apart.own
      results := fun n other => by
        rw [result?, result?, List.lookup_append, List.lookup_append, ← result?, ← result?, apart.results n other] }

theorem step (apart : Apart c ids l l') (event : Event K V) : Apart c ids (l.step event) (l'.step event) := by
  cases event with
  | load key => exact apart.load key
  | dispatch => exact apart.dispatch
  | finish d outcome =>
    by_cases own : d = c
    next =>
      subst own
      exact (apart.finish_own outcome).symm.finish_own outcome |>.symm
    next => exact apart.finish_other own outcome

theorem foldl (apart : Apart c ids l l') (later : List (Event K V)) :
    Apart c ids (later.foldl Loader.step l) (later.foldl Loader.step l') := by
  induction later generalizing l l' with
  | nil => exact apart
  | cons event later ih => exact ih (apart.step event)

end Apart

theorem Consistent.apart_finish (consistent : Consistent events l) {c : Nat} {ids : List Nat}
    (listed : (c, ids) ∈ l.inFlight) (outcome : Outcome V) : Apart c ids (l.finish c outcome) l := by
  have found := lookup_of_nodup consistent.distinct listed
  refine Apart.finish_own ⟨rfl, rfl, rfl, rfl, rfl, fun loads own => ?_, ?_, fun _ _ => rfl⟩ outcome
  · rw [found, or_self, Option.some.injEq] at own
    exact own.symm
  · exact consistent.lt_of_inFlight (List.mem_map_of_mem (f := Prod.fst) listed)

end

/-- After any events, a dispatch is due if and only if loads wait for it. The keys that were loaded between two
dispatches make one call. Every load waits, or is in one call that has not ended, or has its result. When a call ends,
each of its loads has from then on the result of its place, and no other load has another result for it. -/
theorem settles_once (events : List (Event K V)) :
    ((run events).queue.isSome ↔ (run events).scheduled = 1) ∧ (run events).scheduled ≤ 1 ∧
    (∃ past, groups events = past ++ [(run events).waiting.map Prod.snd] ∧
      (run events).calls = past.filter (!·.isEmpty)) ∧
    (run events).calls.flatten ++ (run events).waiting.map Prod.snd = loaded events ∧
    (run events).waiting.map Prod.fst =
      List.range' (run events).calls.flatten.length (run events).waiting.length ∧
    ((run events).settled.map Prod.fst ++
      ((run events).inFlight.flatMap Prod.snd ++ (run events).waiting.map Prod.fst)).Perm
        (List.range (loaded events).length) ∧
    ∀ c ids, (c, ids) ∈ (run events).inFlight →
      (∃ keys, (run events).calls[c]? = some keys ∧
        ids = List.range' ((run events).calls.take c).flatten.length keys.length) ∧
      ∀ (outcome : Outcome V) (later : List (Event K V)),
        (∀ i n, ids[i]? = some n → (run events).result? n = none ∧
          (run (events ++ .finish c outcome :: later)).result? n = some (outcome.resultAt i)) ∧
        ∀ n ∉ ids, (run (events ++ .finish c outcome :: later)).result? n = (run (events ++ later)).result? n := by
  have consistent := consistent_run events
  have slot := consistent.slot
  have count : (run events).loads = (loaded events).length := by
    rw [← consistent.keys, consistent.loads, List.length_append, List.length_map]
  refine ⟨?_, ?_, consistent.grouped, consistent.keys, consistent.queued, count ▸ consistent.placed, ?_⟩
  · cases queue : (run events).queue <;> simp [slot, queue]
  · cases queue : (run events).queue <;> simp [slot, queue]
  · intro c ids listed
    refine ⟨consistent.made c ids listed, fun outcome later => ⟨fun i n place => ?_, fun n other => ?_⟩⟩
    · obtain ⟨before, after⟩ := consistent.result?_finish listed place outcome
      refine ⟨before, ?_⟩
      rw [run, List.foldl_append]
      exact result?_foldl after later
    · rw [run, run, List.foldl_append, List.foldl_append]
      exact ((consistent.apart_finish listed outcome).foldl later).results n other

def twoCalls : List (Event String String) :=
  [.load "a", .dispatch, .load "b", .load "c", .dispatch]

theorem settles_once_twoCalls : (1, [1, 2]) ∈ (run twoCalls).inFlight ∧
    (run (twoCalls ++ .finish 1 (.answered [.ok "B"]) :: [.finish 0 .lost])).result? 2 =
      some (.error (.missingKey "#1")) := by
  have listed : (1, [1, 2]) ∈ (run twoCalls).inFlight := by decide
  obtain ⟨-, -, -, -, -, -, inFlight⟩ := settles_once twoCalls
  obtain ⟨own, -⟩ := (inFlight 1 [1, 2] listed).2 (.answered [.ok "B"]) [.finish 0 .lost]
  exact ⟨listed, (own 1 2 rfl).2⟩

end Loader

end Protogen.Rpc
