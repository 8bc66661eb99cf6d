import Protogen.Proofs.Rpc.Loader

set_option autoImplicit false

namespace Protogen.Rpc.Loader

variable {K V : Type} {events : List (Event K V)} {l : Loader K V}

theorem run_snoc (events : List (Event K V)) (event : Event K V) :
    run (events ++ [event]) = (run events).step event :=
  List.foldl_append

theorem settled_of_result? {n : Nat} {result : Except LoadError V} (found : l.result? n = some result) :
    (n, result) ∈ l.settled := by
  obtain ⟨before, after, settled, -⟩ := List.lookup_eq_some_iff.1 found
  simp [settled]

theorem exists_finish {n : Nat} {result : Except LoadError V} (settled : (n, result) ∈ (run events).settled) :
    ∃ before c outcome later ids i, events = before ++ .finish c outcome :: later ∧
      (c, ids) ∈ (run before).inFlight ∧ ids[i]? = some n ∧ result = outcome.resultAt i := by
  induction events using List.reverseRecOn with
  | nil => cases settled
  | append_singleton events event ih =>
    rw [run_snoc] at settled
    by_cases old : (n, result) ∈ (run events).settled
    next =>
      obtain ⟨before, c, outcome, later, ids, i, rfl, listed, place, same⟩ := ih old
      exact ⟨before, c, outcome, later ++ [event], ids, i, by simp, listed, place, same⟩
    next =>
      -- No event but the end of a call brings results.
      cases event with
      | load key =>
        rw [step, load_eq] at settled
        exact absurd settled old
      | dispatch =>
        rw [step, dispatch] at settled
        split at settled
        next => exact absurd settled old
        next => split at settled <;> exact absurd settled old
      | finish c outcome =>
        cases found : (run events).inFlight.lookup c with
        | none =>
          rw [step, finish_idle found] at settled
          exact absurd settled old
        | some ids =>
          rw [step, finish_eq found] at settled
          have new := (List.mem_append.1 settled).resolve_left old
          obtain ⟨i, pair⟩ := List.mem_iff_getElem?.1 new
          obtain ⟨place, brought⟩ := List.getElem?_zip_eq_some.1 pair
          obtain ⟨before, after, whole, -⟩ := List.lookup_eq_some_iff.1 found
          obtain ⟨lt, -⟩ := List.getElem?_eq_some_iff.1 place
          rw [outcome.getElem?_results lt] at brought
          exact ⟨events, c, outcome, [], ids, i, rfl, by simp [whole], place, (Option.some.inj brought).symm⟩

theorem Consistent.loaded_of_inFlight (consistent : Consistent events l) {c i n : Nat} {ids : List Nat}
    (listed : (c, ids) ∈ l.inFlight) (place : ids[i]? = some n) :
    ∃ keys key, l.calls[c]? = some keys ∧ keys[i]? = some key ∧ (loaded events)[n]? = some key := by
  obtain ⟨keys, made, rfl⟩ := consistent.made c ids listed
  obtain ⟨lt, rfl⟩ := List.getElem?_eq_some_iff.1 place
  rw [List.length_range'] at lt
  obtain ⟨room, rfl⟩ := List.getElem?_eq_some_iff.1 made
  refine ⟨_, l.calls[c][i], made, List.getElem?_eq_getElem lt, ?_⟩
  -- The keys of the calls in a row are those of the loads, and the call begins behind those before it.
  have split : l.calls.flatten = (l.calls.take c).flatten ++ (l.calls[c] ++ (l.calls.drop (c + 1)).flatten) := by
    rw [← List.flatten_cons, ← List.flatten_append, ← List.drop_eq_getElem_cons room, List.take_append_drop]
  rw [← consistent.keys, split, List.getElem_range', Nat.one_mul, List.append_assoc,
    List.getElem?_append_right (Nat.le_add_right ..), Nat.add_sub_cancel_left, List.append_assoc,
    List.getElem?_append_left lt]
  exact List.getElem?_eq_getElem lt

theorem getElem?_calls_foldl {c : Nat} {keys : List K} (made : l.calls[c]? = some keys)
    (later : List (Event K V)) : (later.foldl step l).calls[c]? = some keys := by
  induction later generalizing l with
  | nil => exact made
  | cons event later ih =>
    refine ih ?_
    obtain ⟨lt, -⟩ := List.getElem?_eq_some_iff.1 made
    cases event with
    | load key =>
      rw [step, load_eq]
      exact made
    | dispatch =>
      rw [step, dispatch]
      split
      next => exact made
      next =>
        split
        next => exact made
        next => exact (List.getElem?_append_left lt).trans made
    | finish c' outcome =>
      rw [step, finish]
      split <;> exact made

-- What is right for every key of every call is right for every load.
theorem right_of_settled (right : K → Except LoadError V → Prop)
    (answers : ∀ c outcome, .finish c outcome ∈ events → ∀ keys, (run events).calls[c]? = some keys →
      ∀ i key, keys[i]? = some key → right key (outcome.resultAt i))
    {n : Nat} {result : Except LoadError V} (settled : (n, result) ∈ (run events).settled) :
    ∃ key, (loaded events)[n]? = some key ∧ right key result := by
  obtain ⟨before, c, outcome, later, ids, i, rfl, listed, place, rfl⟩ := exists_finish settled
  obtain ⟨keys, key, made, keyAt, found⟩ := (consistent_run before).loaded_of_inFlight listed place
  refine ⟨key, ?_, answers c outcome (by simp) keys ?_ i key keyAt⟩
  · obtain ⟨lt, -⟩ := List.getElem?_eq_some_iff.1 found
    rw [loaded_append, List.getElem?_append_left lt, found]
  · rw [run, List.foldl_append]
    exact getElem?_calls_foldl made _

theorem exists_settled (queue : (run events).queue = none) (ended : (run events).inFlight = []) {n : Nat}
    {key : K} (load : (loaded events)[n]? = some key) : ∃ result, (run events).result? n = some result := by
  have consistent := consistent_run events
  obtain ⟨lt, -⟩ := List.getElem?_eq_some_iff.1 load
  have placed : ((run events).settled.map Prod.fst).Perm (List.range (run events).loads) := by
    simpa [waiting, queue, ended] using consistent.placed
  have count : (run events).loads = (loaded events).length := by
    rw [← consistent.keys, consistent.loads, List.length_append, List.length_map]
  have listed : n ∈ (run events).settled.map Prod.fst := by
    rw [placed.mem_iff, count]
    exact List.mem_range.2 lt
  obtain ⟨⟨_, result⟩, member, rfl⟩ := List.mem_map.1 listed
  have nodup := placed.nodup_iff.2 List.nodup_range
  exact ⟨result, lookup_of_nodup nodup member⟩

end Protogen.Rpc.Loader
