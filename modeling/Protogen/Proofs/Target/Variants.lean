import Mathlib.Tactic.TFAE
import Protogen.Code.Enumeration
import Protogen.Proofs.Code.Texts
import Protogen.Proofs.Target.Enumeration

set_option autoImplicit false

namespace Protogen

namespace Schema

theorem eraseDups_concat (numbers : List Int32) (n : Int32) :
    (numbers ++ [n]).eraseDups = numbers.eraseDups ++ if n ∈ numbers then [] else [n] := by
  rw [List.eraseDups_append]
  split
  next known => simp [List.removeAll, known]
  next other => simp [List.removeAll, List.eraseDups_cons, other]

theorem numbers_leading (values : List EnumValue) :
    (leading values).map (·.number) = (values.map (·.number)).eraseDups := by
  induction values using List.reverseRecOn with
  | nil => rfl
  | append_singleton values v ih =>
    have known : values.any (·.number == v.number) = true ↔ v.number ∈ values.map (·.number) := by simp
    rw [leading_snoc, List.map_append, List.map_append, List.map_singleton, eraseDups_concat, ih]
    simp only [known]
    split <;> rfl

end Schema

namespace Target

open Naming (padded variant)
open Schema (EnumValue leading leading_snoc nodup_leading numbers_leading)

/-- The name with underscores after it, as many as there are such names taken from the start on. -/
def FirstFree (taken : List String) (name fresh : String) : Prop :=
  ∃ n, fresh = padded name n ∧ fresh ∉ taken ∧ ∀ i < n, padded name i ∈ taken

theorem firstFree_freshName (taken : List String) (name : String) : FirstFree taken name (freshName taken name) := by
  obtain ⟨n, fresh, tried⟩ := freshNameTo_eq taken taken.length name
  exact ⟨n, fresh, freshName_not_mem taken name, tried⟩

/-- The variants have the names of all the values, each those of its number. -/
def Gathers (values : List EnumValue) (variants : List Variant) : Prop :=
  ∀ w ∈ variants, w.aliases = (values.filter (·.number == w.number)).map (·.name)

theorem Gathers.addValue {values : List EnumValue} {variants : List Variant} (gathers : Gathers values variants)
    (numbers : variants.map (·.number) = (leading values).map (·.number)) (v : EnumValue) :
    Gathers (values ++ [v]) (addValue variants v) := by
  -- A variant of another number has nothing of the value.
  have other {w : Variant} (member : w ∈ variants) (differs : w.number ≠ v.number) :
      w.aliases = ((values ++ [v]).filter (·.number == w.number)).map (·.name) := by
    rw [gathers w member, List.filter_append]
    simp [Ne.symm differs]
  rw [Target.addValue]
  split
  next =>
    refine List.forall_mem_map.2 fun w member => ?_
    split
    next same =>
      have own := gathers w member
      rw [Variant.aliases] at own ⊢
      rw [List.filter_append, List.map_append, ← own]
      simp [same]
    next differs => exact other member differs
  next fresh =>
    rw [Bool.not_eq_true, List.any_eq_false] at fresh
    refine List.forall_mem_append.2 ⟨fun w member => other member (by simpa using fresh w member), ?_⟩
    -- No value has the number, since the variants have the numbers of all of them.
    have none : values.filter (·.number == v.number) = [] := by
      refine List.filter_eq_nil_iff.2 fun u member same => ?_
      have listed : u.number ∈ variants.map (·.number) := by
        rw [numbers, numbers_leading, List.mem_eraseDups]
        exact List.mem_map_of_mem member
      obtain ⟨w, known, equal⟩ := List.mem_map.1 listed
      exact fresh w known (beq_iff_eq.2 (equal.trans (beq_iff_eq.1 same)))
    rw [List.forall_mem_singleton, Variant.aliases, List.filter_append, none]
    simp

-- What the variants are called, each with the value that it is called by.
def labels (variants : List Variant) : List (String × String) :=
  variants.map fun w => (w.name, w.written)

-- Each is called by its value, after those in front of it.
def InTurn (labels : List (String × String)) : Prop :=
  ∀ before l after, labels = before ++ l :: after → FirstFree (before.map (·.1)) (variant l.2) l.1

theorem inTurn_concat {ls : List (String × String)} {l : String × String} (turn : InTurn ls)
    (free : FirstFree (ls.map (·.1)) (variant l.2) l.1) : InTurn (ls ++ [l]) := by
  intro before l' after same
  rcases List.eq_nil_or_concat after with rfl | ⟨after, last, rfl⟩
  · obtain ⟨rfl, single⟩ := List.append_inj' same rfl
    cases single
    exact free
  · have split : ls ++ [l] = (before ++ l' :: after) ++ [last] := by simpa using same
    exact turn before l' after (List.append_inj' split rfl).1

theorem InTurn.addValue {variants : List Variant} (turn : InTurn (labels variants)) (v : EnumValue) :
    InTurn (labels (addValue variants v)) := by
  have names : variants.map (·.name) = (labels variants).map (·.1) := by simp [labels]
  rw [labels, map_addValue _ fun _ _ => rfl, ← labels, names]
  split
  next => rwa [List.append_nil]
  next => exact inTurn_concat turn (firstFree_freshName _ _)

namespace Enumeration

variable (symbol : String) (e : Schema.Enum)

theorem numbers_variants : (ofSchema symbol e).variants.map (·.number) = (leading e.values).map (·.number) := by
  rw [← (called_ofSchema symbol e).numbers]
  simp [calls]

theorem nodup_names : ((ofSchema symbol e).variants.map (·.name)).Nodup := by
  have distinct := (called_ofSchema symbol e).distinct
  rwa [calls, List.map_map] at distinct

theorem gathers_ofSchema : Gathers e.values (ofSchema symbol e).variants := by
  have numbers (values : List EnumValue) := numbers_variants symbol ⟨e.name, values⟩
  simp only [ofSchema] at numbers ⊢
  induction e.values using List.reverseRecOn with
  | nil => exact List.forall_mem_nil _
  | append_singleton values v ih =>
    rw [List.foldl_append]
    exact ih.addValue (numbers values) v

theorem inTurn_ofSchema : InTurn (labels (ofSchema symbol e).variants) := by
  rw [ofSchema]
  induction e.values using List.reverseRecOn with
  | nil => exact fun before l after same => by simp [labels] at same
  | append_singleton values v ih =>
    rw [List.foldl_append]
    exact ih.addValue v

variable {symbol : String} {e : Schema.Enum}

theorem infix_nameFn (options : Options) : ∃ added,
    Code.textsOf [Code.nameFn symbol ((ofSchema symbol e).variants.map (fun v => (v.name, v.written)) ++ added)] <:+:
      Code.textsOf (Code.enumItem options (ofSchema symbol e)) := by
  rw [Code.enumItem]
  split
  next =>
    refine ⟨if (ofSchema symbol e).addsFallback then [(fallback, "UNRECOGNIZED")] else [], ?_⟩
    rw [Code.variantEnum.eq_def]
    exact Code.infix_of_mem_block (.tail _ (.tail _ (.tail _ (.tail _ (.head _)))))
      (List.mem_append_right _ (.tail _ (.tail _ (.head _))))
  next =>
    refine ⟨[], ?_⟩
    rw [List.append_nil, Code.numberEnum.eq_def]
    exact Code.infix_of_mem_block (.head _) (List.mem_append_right _ (.tail _ (.tail _ (.head _))))

/-- There is one variant for each number, in the order in which the numbers come first. Its other names are those of
the values of that number, of which the first is written; it is called by that one, with as few underscores after it as
keep it apart from the variants before it. -/
theorem partition_values (symbol : String) (e : Schema.Enum) :
    (ofSchema symbol e).variants.map (·.number) = (e.values.map (·.number)).eraseDups ∧
    ((ofSchema symbol e).variants.map (·.name)).Nodup ∧
    (∀ before v after, (ofSchema symbol e).variants = before ++ v :: after →
      FirstFree (before.map (·.name)) (variant v.written) v.name) ∧
    (∀ v ∈ (ofSchema symbol e).variants,
      v.aliases = (e.values.filter (·.number == v.number)).map (·.name) ∧ v.aliases.head? = some v.written) ∧
    ∀ options, ∃ added,
      Code.textsOf [Code.nameFn symbol ((ofSchema symbol e).variants.map (fun v => (v.name, v.written)) ++ added)] <:+:
        Code.textsOf (Code.enumItem options (ofSchema symbol e)) := by
  refine ⟨(numbers_variants symbol e).trans (numbers_leading e.values), nodup_names symbol e, ?_,
    fun v member => ⟨gathers_ofSchema symbol e v member, rfl⟩, infix_nameFn⟩
  intro before v after same
  have free := inTurn_ofSchema symbol e (labels before) (v.name, v.written) (labels after) (by simp [same, labels])
  simpa [labels, Function.comp_def] using free

-- Numbers of variants

theorem nodup_numbers (symbol : String) (e : Schema.Enum) : ((ofSchema symbol e).variants.map (·.number)).Nodup := by
  rw [numbers_variants]
  exact nodup_leading e.values

theorem mem_numbers_iff (symbol : String) {n : Int32} :
    n ∈ (ofSchema symbol e).variants.map (·.number) ↔ n ∈ e.values.map (·.number) := by
  rw [numbers_variants, numbers_leading, List.mem_eraseDups]

theorem nodup_called : ((ofSchema symbol e).numbers.map (·.1)).Nodup := by
  have names : ((ofSchema symbol e).variants.map fun v => (v.name, v.number)).map (·.1) =
      (ofSchema symbol e).variants.map (·.name) := by simp
  rw [numbers, List.map_append, names]
  split
  next added =>
    -- The variant that is added is called like none of the others, or it would not be added.
    refine List.nodup_append.2 ⟨nodup_names symbol e, by simp, ?_⟩
    intro name member name' own same
    rw [List.map_singleton, List.mem_singleton] at own
    obtain ⟨w, listed, called⟩ := List.mem_map.1 member
    rw [addsFallback, Bool.not_eq_true', List.any_eq_false] at added
    exact added w listed (beq_iff_eq.2 (called.trans (same.trans own)))
  next => simpa using nodup_names symbol e

theorem toNumber?_eq {p : String × Int32} (member : p ∈ (ofSchema symbol e).numbers) :
    (ofSchema symbol e).toNumber? p.1 = some p.2 := by
  have found := (find?_key_iff nodup_called).2 ⟨member, rfl⟩
  rw [toNumber?, found]
  rfl

theorem ofNumber_number {v : Variant} (member : v ∈ (ofSchema symbol e).variants) :
    (ofSchema symbol e).ofNumber v.number = v.name := by
  have found := (find?_key_iff (nodup_numbers symbol e)).2 ⟨member, rfl⟩
  rw [ofNumber, found]
  rfl

-- A number that no value has stands for the added variant.
theorem ofNumber_eq_fallback_iff (added : (ofSchema symbol e).addsFallback = true) {n : Int32} :
    (ofSchema symbol e).ofNumber n = fallback ↔ n ∉ e.values.map (·.number) := by
  rw [← mem_numbers_iff symbol, List.mem_map]
  constructor
  · rintro same ⟨v, member, rfl⟩
    rw [ofNumber_number member] at same
    rw [addsFallback, Bool.not_eq_true', List.any_eq_false] at added
    exact added v member (beq_iff_eq.2 same)
  · intro other
    have none : (ofSchema symbol e).variants.find? (·.number == n) = none :=
      List.find?_eq_none.2 fun v member same => other ⟨v, member, beq_iff_eq.1 same⟩
    rw [ofNumber, none]
    rfl

def numberFn (e : Enumeration) : List String :=
  ["pub fn to_number(self) -> i32", "match self"] ++
    e.numbers.map fun p => e.symbol ++ "::" ++ p.1 ++ " => " ++ Code.number p.2 ++ ","

def variantFn (e : Enumeration) : List String :=
  ["pub fn from_number(value: i32) -> " ++ e.symbol, "match value"] ++
    e.variants.map (fun v => Code.number v.number ++ " => " ++ e.symbol ++ "::" ++ v.name ++ ",") ++
    ["_ => " ++ e.symbol ++ "::" ++ fallback ++ ","]

theorem infix_numberFn (E : Enumeration) (json : EnumJson) :
    numberFn E <:+: Code.textsOf (Code.variantEnum E json) := by
  rw [Code.variantEnum.eq_def]
  refine List.IsInfix.trans ?_ (Code.infix_of_mem_block (.tail _ (.tail _ (.head _)))
    (List.mem_append_right _ (.tail _ (.tail _ (.head _)))))
  refine List.IsPrefix.isInfix ?_
  simp [numberFn, Code.textsOf_map, Code.Piece.render, String.append_assoc]

theorem infix_variantFn (E : Enumeration) (json : EnumJson) :
    variantFn E <:+: Code.textsOf (Code.variantEnum E json) := by
  rw [Code.variantEnum.eq_def]
  refine List.IsInfix.trans ?_ (Code.infix_of_mem_block (.head _)
    (List.mem_append_right _ (.tail _ (.tail _ (.head _)))))
  refine List.IsPrefix.isInfix ?_
  simp [variantFn, Code.textsOf_map, Code.Piece.render, String.append_assoc]

theorem mem_numbers {variant : String} {n : Int32} (given : (ofSchema symbol e).toNumber? variant = some n) :
    (variant, n) ∈ (ofSchema symbol e).numbers := by
  obtain ⟨p, found, rfl⟩ := Option.map_eq_some_iff.1 given
  obtain ⟨member, rfl⟩ := (find?_key_iff nodup_called).1 found
  exact member

theorem returns_tfae (symbol : String) (e : Schema.Enum) : List.TFAE [
    ∀ variant n, (ofSchema symbol e).toNumber? variant = some n → (ofSchema symbol e).ofNumber n = variant,
    ((ofSchema symbol e).numbers.map (·.2)).Nodup,
    (ofSchema symbol e).addsFallback = true → -1 ∉ e.values.map (·.number)] := by
  tfae_have 1 → 2 := by
    intro returns
    have names : ((ofSchema symbol e).numbers.map (·.2)).map (ofSchema symbol e).ofNumber =
        (ofSchema symbol e).numbers.map (·.1) := by
      rw [List.map_map]
      exact List.map_congr_left fun p member => returns p.1 p.2 (toNumber?_eq member)
    exact .of_map _ (names ▸ nodup_called)
  tfae_have 2 → 3 := by
    intro distinct added declared
    rw [numbers, if_pos added, List.map_append] at distinct
    obtain ⟨v, member, number⟩ := List.mem_map.1 ((mem_numbers_iff symbol).2 declared)
    refine (List.nodup_append.1 distinct).2.2 (-1) ?_ (-1) (by simp) rfl
    exact List.mem_map.2 ⟨(v.name, v.number), List.mem_map_of_mem member, number⟩
  tfae_have 3 → 1 := by
    intro other variant n given
    rcases List.mem_append.1 (mem_numbers given) with declared | fallen
    · obtain ⟨v, member, same⟩ := List.mem_map.1 declared
      cases same
      exact ofNumber_number member
    · split at fallen
      next added =>
        obtain ⟨rfl, rfl⟩ := Prod.mk.inj (List.mem_singleton.1 fallen)
        exact (ofNumber_eq_fallback_iff added).2 (other added)
      next => cases fallen
  tfae_finish

/-- The variants of values go to their numbers and come back. The one that is added goes to -1, and comes back if no
value has this number; else another variant does. All come back if and only if the numbers of the arms are distinct, if
and only if no variant is added or no value has the number -1. -/
theorem ofNumber_toNumber (symbol : String) (e : Schema.Enum) :
    (∀ v ∈ (ofSchema symbol e).variants,
      (ofSchema symbol e).toNumber? v.name = some v.number ∧ (ofSchema symbol e).ofNumber v.number = v.name) ∧
    ((ofSchema symbol e).addsFallback = true →
      (ofSchema symbol e).toNumber? fallback = some (-1) ∧
        ((ofSchema symbol e).ofNumber (-1) = fallback ↔ -1 ∉ e.values.map (·.number))) ∧
    List.TFAE [
      ∀ variant n, (ofSchema symbol e).toNumber? variant = some n → (ofSchema symbol e).ofNumber n = variant,
      ((ofSchema symbol e).numbers.map (·.2)).Nodup,
      (ofSchema symbol e).addsFallback = true → -1 ∉ e.values.map (·.number)] ∧
    ∀ options : Options, options.stringEnums = true →
      numberFn (ofSchema symbol e) <:+: Code.textsOf (Code.enumItem options (ofSchema symbol e)) ∧
        variantFn (ofSchema symbol e) <:+: Code.textsOf (Code.enumItem options (ofSchema symbol e)) := by
  refine ⟨fun v member => ⟨?_, ofNumber_number member⟩, fun added => ⟨?_, ofNumber_eq_fallback_iff added⟩,
    returns_tfae symbol e, fun options named => ?_⟩
  · exact toNumber?_eq (List.mem_append_left _ (List.mem_map_of_mem member))
  · refine toNumber?_eq (p := (fallback, -1)) (List.mem_append_right _ ?_)
    rw [if_pos added]
    exact List.mem_singleton_self _
  · rw [Code.enumItem, if_pos named]
    exact ⟨infix_numberFn _ _, infix_variantFn _ _⟩

def level : Schema.Enum :=
  ⟨"Level", [⟨"LEVEL_NONE", 0⟩, ⟨"LEVEL_LOW", -1⟩]⟩

theorem unrecognized_lost : (ofSchema "Level" level).toNumber? "Unrecognized" = some (-1) ∧
    (ofSchema "Level" level).ofNumber (-1) = "LevelLow" ∧
    ¬((ofSchema "Level" level).numbers.map (·.2)).Nodup := by
  decide

end Enumeration

end Target

end Protogen
