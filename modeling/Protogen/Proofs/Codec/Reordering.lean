import Protogen.Proofs.Codec.Framing
import Protogen.Proofs.Codec.Splitting
import Protogen.Proofs.Wire.Grammar

set_option autoImplicit false

namespace Protogen

open Wire (fieldOf? varintBytes)
open Wire.Read (Takes Confined)

section Steps

variable {σ α : Type} {step : σ → α → σ} {p : α → Bool} {as as' : List α}

theorem step_foldl {b : α} (swap : ∀ a ∈ as, ∀ s, step (step s a) b = step (step s b) a) (s : σ) :
    as.foldl step (step s b) = step (as.foldl step s) b := by
  induction as generalizing s with
  | nil => rfl
  | cons a as ih =>
    obtain ⟨first, swap⟩ := List.forall_mem_cons.1 swap
    rw [List.foldl_cons, List.foldl_cons, ← first, ih swap]

theorem foldl_of_perm (perm : as.Perm as') (kept : as.filter p = as'.filter p)
    (swap : ∀ a ∈ as, ∀ b ∈ as, ¬(p a = true ∧ p b = true) → ∀ s, step (step s a) b = step (step s b) a) (s : σ) :
    as.foldl step s = as'.foldl step s := by
  induction as' generalizing as s with
  | nil => rw [perm.eq_nil]
  | cons b as' ih =>
    -- The first occurrence of what is to come first is moved to the front.
    obtain ⟨front, back, rfl, first⟩ := List.eq_append_cons_of_mem (perm.mem_iff.2 (List.mem_cons_self ..))
    have early : p b = true → front.filter p = [] := by
      intro own
      rw [List.filter_append, List.filter_cons_of_pos own, List.filter_cons_of_pos own] at kept
      cases before : front.filter p with
      | nil => rfl
      | cons a others =>
        rw [before, List.cons_append] at kept
        have member : a ∈ front.filter p := before ▸ List.mem_cons_self ..
        rw [(List.cons.inj kept).1] at member
        exact absurd (List.mem_of_mem_filter member) first
    have past : ∀ a ∈ front, ∀ s, step (step s a) b = step (step s b) a := by
      intro a member
      refine swap a (List.mem_append_left _ member) b (by simp) ?_
      rintro ⟨before, own⟩
      have both : a ∈ front.filter p := List.mem_filter.2 ⟨member, before⟩
      rw [early own] at both
      cases both
    have rest : (front ++ back).filter p = as'.filter p := by
      cases own : p b with
      | true =>
        rw [List.filter_append, List.filter_cons_of_pos own, List.filter_cons_of_pos own, early own,
          List.nil_append] at kept
        rw [List.filter_append, early own, List.nil_append]
        exact (List.cons.inj kept).2
      | false =>
        have apart : ¬p b = true := Bool.eq_false_iff.1 own
        rwa [List.filter_append, List.filter_cons_of_neg apart, List.filter_cons_of_neg apart,
          ← List.filter_append] at kept
    have fewer : (front ++ back).Perm as' := (List.perm_middle.symm.trans perm).cons_inv
    have among : ∀ a ∈ front ++ back, a ∈ front ++ b :: back := by
      intro a member
      rcases List.mem_append.1 member with front' | back'
      · exact List.mem_append_left _ front'
      · exact List.mem_append_right _ (List.mem_cons_of_mem _ back')
    have others := ih fewer rest (fun a member b' member' => swap a (among a member) b' (among b' member'))
      (step s b)
    rw [List.foldl_append, List.foldl_cons, ← step_foldl past, ← List.foldl_append, others, List.foldl_cons]

end Steps

namespace FieldCodec

variable {μ α : Type} {depth number : Nat} {c : ValueCodec α} {w : μ} {changes : (μ → μ) → Prop}

def Makes (f : FieldCodec μ) (depth : Nat) (w : μ) (changes : (μ → μ) → Prop) : Prop :=
  ∀ records, f.records w = .ok records → ∀ record ∈ records, record.length < 4294967296 →
    ∃ change, changes change ∧ ∀ m, f.TakesRecord depth m record (change m)

theorem takesRecord_record {f : FieldCodec μ} {set : α → μ → μ} {a b : α} {bytes : List UInt8}
    (reads : ∀ tag m, f.read tag m = (do return set (← c.read) m)) (carries : c.Carries depth a b)
    (write : record f.number c a = .ok bytes) (short : bytes.length < 4294967296) (m : μ) :
    f.TakesRecord depth m bytes (set b m) := by
  obtain ⟨payload, value, takes⟩ := carries
  rw [record_ok f.number value] at write
  cases write
  rw [List.length_append] at short
  refine ⟨c.wireType, payload, rfl, ?_⟩
  rw [reads]
  exact (takes (by omega)).map (set · m)

theorem makes_one {f : FieldCodec μ} {set : α → μ → μ}
    (reads : ∀ tag m, f.read tag m = (do return set (← c.read) m))
    (one : f.records w = .ok [] ∨
      ∃ a, c.Carries depth a a ∧ changes (set a) ∧ f.records w = (do return [← record f.number c a])) :
    f.Makes depth w changes := by
  intro records write bytes member short
  rcases one with none | ⟨a, carries, change, own⟩
  next =>
    rw [none] at write
    cases write
    cases member
  next =>
    rw [own] at write
    obtain ⟨written, first, write⟩ := ok_of_bind write
    cases write
    obtain rfl := List.mem_singleton.1 member
    exact ⟨_, change, takesRecord_record reads carries first short⟩

theorem makes_required {isDefault : α → Bool} {get : μ → α} {set : α → μ → μ}
    (value : isDefault (get w) = false → c.Carries depth (get w) (get w)) (change : changes (set (get w))) :
    (required number c isDefault get set).Makes depth w changes := by
  refine makes_one (fun _ _ => rfl) ?_
  cases default : isDefault (get w) with
  | true => exact .inl (if_pos default)
  | false =>
    have written : ¬isDefault (get w) = true := Bool.eq_false_iff.1 default
    exact .inr ⟨get w, value default, change, if_neg written⟩

theorem makes_optional {get : μ → Option α} {set : α → μ → μ}
    (value : ∀ a, get w = some a → c.Carries depth a a ∧ changes (set a)) :
    (optional number c get set).Makes depth w changes := by
  refine makes_one (fun _ _ => rfl) ?_
  cases there : get w with
  | none => exact .inl (by simp only [optional, there])
  | some a =>
    obtain ⟨carries, change⟩ := value a there
    exact .inr ⟨a, carries, change, by simp only [optional, there]⟩

theorem makes_repeated {get : μ → List α} {add : α → μ → μ}
    (value : ∀ a ∈ get w, c.Carries depth a a ∧ changes (add a)) :
    (repeated number c get add).Makes depth w changes := by
  intro records write bytes member short
  obtain ⟨a, among, own⟩ := mem_of_mapM write bytes member
  obtain ⟨carries, change⟩ := value a among
  exact ⟨_, change, takesRecord_record (fun _ _ => rfl) carries own short⟩

theorem makes_packed {get : μ → List α} {add : α → μ → μ} (confined : Confined 1 c.read)
    (value : ∀ a ∈ get w, c.Carries depth a a)
    (change : changes fun m => (get w).foldl (fun m a => add a m) m) :
    (packed number c get add).Makes depth w changes := by
  intro records write bytes member short
  refine ⟨_, change, fun m => ?_⟩
  obtain ⟨records', write', takes⟩ :=
    (delivers_packed confined value : (packed number c get add).Delivers depth w m _)
  obtain rfl : records' = records := Except.ok.inj (write'.symm.trans write)
  cases empty : (get w).isEmpty with
  | true =>
    simp only [packed, empty, if_true] at write
    cases write
    cases member
  | false =>
    simp only [packed, empty] at write
    obtain ⟨run, -, write⟩ := ok_of_bind write
    cases write
    obtain rfl := List.mem_singleton.1 member
    cases takes (by simpa using short) with
    | cons first rest =>
      cases rest
      exact first

end FieldCodec

namespace MessageCodec

variable {μ : Type} {c : MessageCodec μ} {depth : Nat} {w m m' : μ} {changes : Nat → (μ → μ) → Prop}
  {records order : List (List UInt8)}

theorem makes_of_records (numbered : c.Numbered) (makes : ∀ f ∈ c.fields, f.Makes depth w (changes f.number))
    (write : c.records w = .ok records) (short : ∀ record ∈ records, record.length < 4294967296) :
    ∀ record ∈ records, ∃ n change, fieldOf? record = some n ∧ changes n change ∧ 0 < record.length ∧
      ∀ m, Takes (c.readRecord m) depth record (change m) := by
  intro record member
  obtain ⟨all, writes, write⟩ := ok_of_bind write
  cases write
  obtain ⟨own, member', within⟩ := List.mem_flatten.1 member
  obtain ⟨f, claimed, same⟩ := mem_of_mapM writes own member'
  obtain ⟨change, among, takes⟩ := makes f claimed own same record within (short record member)
  obtain ⟨wireType, payload, rfl, -⟩ := takes w
  have tag := FieldCodec.tag_lt (numbered.small f claimed) wireType
  have nonempty := Wire.length_varintBytes_pos (FieldCodec.tag f.number wireType)
  refine ⟨f.number, change, ?_, among, ?_, fun m => takes_readRecord numbered claimed (takes m)⟩
  next =>
    rw [Wire.fieldOf?_append (ValueCodec.number_varintBytes (by omega)), Nat.mod_eq_of_lt tag, FieldCodec.tag_div]
  next =>
    rw [List.length_append]
    omega

theorem reads_of_changes {change : List UInt8 → μ → μ}
    (each : ∀ record ∈ records, 0 < record.length ∧ ∀ m, Takes (c.readRecord m) depth record (change record m))
    (m : μ) : c.Reads depth m records (records.foldl (fun m record => change record m) m) := by
  induction records generalizing m with
  | nil => exact .nil m
  | cons record records ih =>
    obtain ⟨⟨nonempty, takes⟩, each⟩ := List.forall_mem_cons.1 each
    exact .cons nonempty (takes m) (ih each (change record m))

-- Records of a message may be read in any order that keeps those of a field in place whose changes may not change
-- places.
theorem Reads.reordered {fixed : Nat} (reads : c.Reads depth m records m')
    (makes : ∀ record ∈ records, ∃ n change, fieldOf? record = some n ∧ changes n change ∧ 0 < record.length ∧
      ∀ m, Takes (c.readRecord m) depth record (change m))
    (swap : ∀ n n' change change', changes n change → changes n' change' → ¬(n = fixed ∧ n' = fixed) →
      ∀ m, change' (change m) = change (change' m))
    (perm : order.Perm records)
    (kept : order.filter (fieldOf? · == some fixed) = records.filter (fieldOf? · == some fixed)) :
    c.Reads depth m order m' := by
  have : Nonempty (μ → μ) := ⟨id⟩
  choose! number change own among nonempty takes using makes
  have each : ∀ record ∈ records, 0 < record.length ∧ ∀ m, Takes (c.readRecord m) depth record (change record m) :=
    fun record member => ⟨nonempty record member, takes record member⟩
  have result : m' = order.foldl (fun m record => change record m) m := by
    rw [((reads_of_changes each m).unique reads rfl).2.symm]
    refine foldl_of_perm perm.symm kept.symm (fun a member b member' apart m => ?_) m
    refine swap _ _ _ _ (among a member) (among b member') (fun both => apart ?_) m
    rw [own a member, own b member', both.1, both.2]
    exact ⟨beq_self_eq_true _, beq_self_eq_true _⟩
  rw [result]
  exact reads_of_changes (fun record member => each record (perm.mem_iff.1 member)) m

end MessageCodec

end Protogen
