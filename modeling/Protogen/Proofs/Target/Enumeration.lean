import Protogen.Proofs.Naming.Identifier
import Protogen.Proofs.Schema.Index
import Protogen.Target.Enumeration
import Protogen.Target.OfSchema
import Mathlib.Data.List.Induction
import Mathlib.Data.List.Nodup
import Mathlib.Data.List.Perm.Subperm

set_option autoImplicit false

namespace Protogen

namespace Schema

def leading (values : List EnumValue) : List EnumValue :=
  values.eraseDupsBy fun v w => v.number == w.number

theorem leading_snoc (values : List EnumValue) (v : EnumValue) : leading (values ++ [v]) =
    leading values ++ if values.any (·.number == v.number) then [] else [v] := by
  induction h : values.length using Nat.strongRecOn generalizing values with
  | ind n ih =>
    cases values with
    | nil => simp [leading, List.eraseDupsBy_cons]
    | cons u us =>
      -- The values after the first one that have other numbers are fewer.
      have fewer : (us.filter fun w => (w.number == u.number) = false).length < n := by
        have bound := List.length_filter_le (fun w => decide ((w.number == u.number) = false)) us
        simp only [List.length_cons] at h
        omega
      have later := ih _ fewer _ rfl
      rw [leading, leading] at later
      rw [leading, leading, List.cons_append, List.eraseDupsBy_cons, List.eraseDupsBy_cons, List.filter_append]
      by_cases same : v.number = u.number
      next => simp [same]
      next =>
        have kept : [v].filter (fun w => (w.number == u.number) = false) = [v] := by simp [same]
        have others : (us.filter fun w => (w.number == u.number) = false).any (·.number == v.number) =
            us.any (·.number == v.number) := by
          rw [List.any_filter]
          congr 1
          funext w
          by_cases equal : w.number = v.number <;> simp [equal, same]
        rw [kept, later, others]
        simp [Ne.symm same]

theorem find?_leading (values : List EnumValue) (n : Int32) :
    (leading values).find? (·.number == n) = values.find? (·.number == n) := by
  induction values using List.reverseRecOn with
  | nil => rfl
  | append_singleton values v ih =>
    rw [leading_snoc, List.find?_append, List.find?_append, ih]
    split
    next taken =>
      by_cases own : v.number = n
      next =>
        have found : (values.find? (·.number == n)).isSome = true := by
          rw [List.find?_isSome]
          simpa [own] using taken
        simp [Option.or_of_isSome found]
      next => simp [own]
    next => rfl

theorem any_leading (values : List EnumValue) (n : Int32) :
    (leading values).any (·.number == n) = values.any (·.number == n) := by
  rw [Bool.eq_iff_iff, List.any_eq_true, List.any_eq_true, ← List.find?_isSome, ← List.find?_isSome, find?_leading]

theorem nodup_leading (values : List EnumValue) : ((leading values).map (·.number)).Nodup := by
  induction values using List.reverseRecOn with
  | nil => exact .nil
  | append_singleton values v ih =>
    rw [leading_snoc]
    split
    next => rwa [List.append_nil]
    next free =>
      rw [← any_leading] at free
      rw [List.map_append]
      refine List.nodup_append.2 ⟨ih, by simp, ?_⟩
      intro n member n' own same
      obtain ⟨u, earlier, rfl⟩ := List.mem_map.1 member
      rw [List.map_singleton, List.mem_singleton] at own
      exact free (List.any_eq_true.2 ⟨u, earlier, beq_iff_eq.2 (same.trans own)⟩)

theorem Enum.exists_default {e : Enum} (values : e.values ≠ []) :
    ∃ d ∈ leading e.values, e.default? = some d := by
  have leads {d : EnumValue} (first : e.values.find? (·.number == d.number) = some d) : d ∈ leading e.values :=
    List.mem_of_find?_eq_some ((find?_leading e.values d.number).trans first)
  rw [default?]
  cases zero : e.values.find? (·.number == 0) with
  | some d =>
    have number : d.number = 0 := by simpa using List.find?_some zero
    exact ⟨d, leads (number ▸ zero), rfl⟩
  | none =>
    obtain ⟨d, others, first⟩ := List.exists_cons_of_ne_nil values
    rw [first] at leads ⊢
    exact ⟨d, leads (by simp), rfl⟩

end Schema

namespace Target

open Naming (padded padded_zero padded_succ padded_injective variant variant_eq_of_padded)
open Schema (EnumValue any_leading find?_leading leading leading_snoc nodup_leading)

-- Underscores are put after a name only as long as it is taken.
theorem freshNameTo_eq (taken : List String) (fuel : Nat) (name : String) :
    ∃ n, freshNameTo taken fuel name = padded name n ∧ ∀ i < n, padded name i ∈ taken := by
  have none (name : String) : ∀ i < 0, padded name i ∈ taken := fun i before => absurd before (Nat.not_lt_zero i)
  induction fuel generalizing name with
  | zero => exact ⟨0, (padded_zero name).symm, none name⟩
  | succ fuel ih =>
    rw [freshNameTo]
    split
    next here =>
      obtain ⟨n, later, tried⟩ := ih (name ++ "_")
      refine ⟨n + 1, later.trans (padded_succ name n), fun i before => ?_⟩
      cases i with
      | zero =>
        rw [padded_zero]
        simpa using here
      | succ i =>
        rw [← padded_succ]
        exact tried i (Nat.lt_of_succ_lt_succ before)
    next => exact ⟨0, (padded_zero name).symm, none name⟩

theorem freshName_of_not_mem {taken : List String} {name : String} (free : name ∉ taken) :
    freshName taken name = name := by
  rw [freshName]
  cases taken.length with
  | zero => rfl
  | succ fuel => simp [freshNameTo, free]

theorem padded_mem_of_freshNameTo {taken : List String} {fuel : Nat} {name : String}
    (stuck : freshNameTo taken fuel name ∈ taken) : ∀ i ≤ fuel, padded name i ∈ taken := by
  induction fuel generalizing name with
  | zero =>
    intro i first
    rw [Nat.le_zero.1 first, padded_zero]
    exact stuck
  | succ fuel ih =>
    rw [freshNameTo] at stuck
    split at stuck
    next taken' =>
      intro i bound
      cases i with
      | zero =>
        rw [padded_zero]
        simpa using taken'
      | succ i =>
        rw [← padded_succ]
        exact ih stuck i (by omega)
    next free => exact absurd stuck (by simpa using free)

theorem freshName_not_mem (taken : List String) (name : String) : freshName taken name ∉ taken := by
  intro stuck
  have tried := padded_mem_of_freshNameTo stuck
  have distinct : ((List.range (taken.length + 1)).map (padded name)).Nodup :=
    (List.nodup_map_iff (padded_injective name)).2 List.nodup_range
  have among : (List.range (taken.length + 1)).map (padded name) ⊆ taken := by
    intro other member
    obtain ⟨i, bound, rfl⟩ := List.mem_map.1 member
    exact tried i (by simpa [Nat.lt_succ_iff] using bound)
  have bound := (distinct.subperm among).length_le
  rw [List.length_map, List.length_range] at bound
  omega

-- A value that is not the first of its number changes nothing of a variant but the names of the others.
theorem map_addValue {α : Type} (tell : Variant → α) (kept : ∀ w others, tell { w with others } = tell w)
    (variants : List Variant) (v : EnumValue) : (addValue variants v).map tell =
      variants.map tell ++ if variants.any (·.number == v.number) then []
        else [tell ⟨freshName (variants.map (·.name)) (variant v.name), v.number, v.name, []⟩] := by
  rw [addValue]
  split
  next =>
    rw [List.append_nil, List.map_map]
    refine List.map_congr_left fun w _ => ?_
    rw [Function.comp_apply]
    split
    next => exact kept w _
    next => rfl
  next => rw [List.map_append, List.map_singleton]

-- What the variants are called, each with its number.
def calls (variants : List Variant) : List (String × Int32) :=
  variants.map fun w => (w.name, w.number)

theorem calls_addValue (variants : List Variant) (v : EnumValue) : calls (addValue variants v) =
    calls variants ++ if variants.any (·.number == v.number) then []
      else [(freshName (variants.map (·.name)) (variant v.name), v.number)] :=
  map_addValue (fun w => (w.name, w.number)) (fun _ _ => rfl) variants v

structure Called (values : List EnumValue) (calls : List (String × Int32)) : Prop where
  numbers : calls.map (·.2) = (leading values).map (·.number)
  distinct : (calls.map (·.1)).Nodup
  first : ∀ name, (calls.find? (·.1 == variant name)).map (·.2) =
    ((leading values).find? (variant ·.name == variant name)).map (·.number)

theorem Called.addValue {values : List EnumValue} {variants : List Variant} (called : Called values (calls variants))
    (v : EnumValue) : Called (values ++ [v]) (calls (addValue variants v)) := by
  have names : variants.map (·.name) = (calls variants).map (·.1) := by simp [calls]
  have taken : variants.any (·.number == v.number) = values.any (·.number == v.number) := by
    have numbers : variants.any (·.number == v.number) = ((calls variants).map (·.2)).any (· == v.number) := by
      simp [calls, List.any_map, Function.comp_def]
    rw [numbers, called.numbers, ← any_leading, List.any_map]
    rfl
  rw [calls_addValue, taken, names]
  by_cases old : values.any (·.number == v.number) = true
  next =>
    have kept : leading (values ++ [v]) = leading values := by rw [leading_snoc, if_pos old, List.append_nil]
    rw [if_pos old, List.append_nil]
    exact ⟨kept ▸ called.numbers, called.distinct, kept ▸ called.first⟩
  next =>
    have more : leading (values ++ [v]) = leading values ++ [v] := by rw [leading_snoc, if_neg old]
    rw [if_neg old]
    refine ⟨?_, ?_, fun name => ?_⟩
    · rw [more, List.map_append, List.map_append, called.numbers]
      rfl
    · rw [List.map_append]
      refine List.nodup_append.2 ⟨called.distinct, by simp, ?_⟩
      intro name member name' own same
      rw [List.map_singleton, List.mem_singleton] at own
      exact freshName_not_mem _ _ (own ▸ same ▸ member)
    · have before := called.first name
      rw [more, List.find?_append, List.find?_append]
      cases found : (leading values).find? (variant ·.name == variant name) with
      | some u =>
        rw [found] at before
        obtain ⟨c, earlier, number⟩ := Option.map_eq_some_iff.1 before
        rw [earlier]
        exact congrArg some number
      | none =>
        rw [found] at before
        have unused := Option.map_eq_none_iff.1 before
        have free : variant name ∉ (calls variants).map (·.1) := by
          rw [List.mem_map]
          rintro ⟨c, member, same⟩
          simpa [same] using List.find?_eq_none.1 unused c member
        -- A name that nothing has yet is given to the value if it is its own.
        rw [unused]
        by_cases own : variant v.name = variant name
        next => simp [own, freshName_of_not_mem free]
        next =>
          obtain ⟨n, fresh, -⟩ := freshNameTo_eq ((calls variants).map (·.1)) ((calls variants).map (·.1)).length
            (variant v.name)
          have other : freshName ((calls variants).map (·.1)) (variant v.name) ≠ variant name := by
            intro same
            rw [freshName, fresh] at same
            exact own (variant_eq_of_padded same.symm).symm
          simp [own, other]

theorem called_ofSchema (symbol : String) (e : Schema.Enum) :
    Called e.values (calls (Enumeration.ofSchema symbol e).variants) := by
  rw [Enumeration.ofSchema]
  induction e.values using List.reverseRecOn with
  | nil => exact ⟨rfl, .nil, fun _ => rfl⟩
  | append_singleton values v ih =>
    rw [List.foldl_append]
    exact ih.addValue v

theorem Base.ofField_enum {ctx : Context} {target : String} {f : Schema.Field} {e : Schema.Enum} {d : EnumValue}
    (kind : f.kind = .enum) (named : f.typeName = some target) (indexed : ctx.index.HasEnum target e)
    (default : e.default? = some d) (owner context : String) : ∃ path, Base.ofField ctx owner f context =
      .ok (.primitive (.enum path ctx.options.stringEnums d.number (variant d.name))) := by
  obtain ⟨entry, found, -⟩ := id indexed
  obtain ⟨path, written⟩ := Schema.Index.exists_path found ctx.file.name ctx.options.moduleRoot ""
  refine ⟨path, ?_⟩
  have type : requireTypeName f context = .ok target := by rw [requireTypeName, named]
  have enum : ctx.index.enum target context = .ok e := Schema.Index.enum_eq_ok.2 indexed
  simp only [ofField, kind, type, enum, default, Context.path, written, bind, Except.bind, pure, Except.pure]

namespace Enumeration

variable {e : Schema.Enum} {d : EnumValue}

theorem exists_variant (symbol : String) (leads : d ∈ leading e.values) :
    ∃ w, (ofSchema symbol e).variants.filter (·.number == d.number) = [w] ∧ w.number = d.number := by
  have numbers : (ofSchema symbol e).variants.map (·.number) = (leading e.values).map (·.number) := by
    rw [← (called_ofSchema symbol e).numbers]
    simp [calls]
  have once : ((leading e.values).map (·.number)).count d.number = 1 :=
    List.count_eq_one_of_mem (nodup_leading e.values) (List.mem_map_of_mem leads)
  have only := List.filter_beq (l := (ofSchema symbol e).variants.map (·.number)) d.number
  rw [numbers, once, ← numbers, List.filter_map] at only
  exact List.map_eq_singleton_iff.1 only

theorem exists_called (symbol : String) (leads : d ∈ leading e.values) :
    ∃ u ∈ leading e.values, ∃ w ∈ (ofSchema symbol e).variants,
      (leading e.values).find? (variant ·.name == variant d.name) = some u ∧
      (calls (ofSchema symbol e).variants).find? (·.1 == variant d.name) = some (w.name, w.number) ∧
      w.name = variant d.name ∧ w.number = u.number := by
  have first := (called_ofSchema symbol e).first d.name
  obtain ⟨u, found⟩ : ∃ u, (leading e.values).find? (variant ·.name == variant d.name) = some u :=
    Option.isSome_iff_exists.1 (List.find?_isSome.2 ⟨d, leads, by simp⟩)
  rw [found] at first
  obtain ⟨c, given, number⟩ := Option.map_eq_some_iff.1 first
  obtain ⟨w, declared, rfl⟩ := List.mem_map.1 (List.mem_of_find?_eq_some given)
  have name : w.name = variant d.name := by simpa using List.find?_some given
  exact ⟨u, List.mem_of_find?_eq_some found, w, declared, found, given, name, number⟩

/-- The default variant of a field is that of the value it stands for by name. What is called so is the first value of
that name among those that are the first of their number; the variant that has the number of the default value is
called so if and only if that value is the one. -/
theorem default_named {ctx : Context} {owner context target : String} {f : Schema.Field} (kind : f.kind = .enum)
    (named : f.typeName = some target) (indexed : ctx.index.HasEnum target e) (values : e.values ≠ [])
    (symbol : String) :
    ∃ path d w, e.default? = some d ∧
      Base.ofField ctx owner f context =
        .ok (.primitive (.enum path ctx.options.stringEnums d.number (variant d.name))) ∧
      (ofSchema symbol e).variants.filter (·.number == d.number) = [w] ∧
      (w.name = variant d.name ↔ (leading e.values).find? (variant ·.name == variant d.name) = some d) ∧
      (ofSchema symbol e).toNumber? (variant d.name) =
        ((leading e.values).find? (variant ·.name == variant d.name)).map (·.number) := by
  obtain ⟨d, leads, default⟩ := e.exists_default values
  obtain ⟨path, mapped⟩ := Base.ofField_enum kind named indexed default owner context
  obtain ⟨w, own, number⟩ := exists_variant symbol leads
  obtain ⟨u, leads', w', declared, found, given, name, number'⟩ := exists_called symbol leads
  refine ⟨path, d, w, default, mapped, own, ?_, ?_⟩
  · rw [found]
    constructor
    · intro agrees
      have member : w ∈ (ofSchema symbol e).variants := List.mem_of_mem_filter (own ▸ List.mem_singleton_self w)
      have equal : (w.name, w.number) = (w'.name, w'.number) :=
        List.inj_on_of_nodup_map (called_ofSchema symbol e).distinct (List.mem_map_of_mem member)
          (List.mem_map_of_mem declared) (agrees.trans name.symm)
      have same : u.number = d.number := by rw [← number', ← number, (Prod.mk.inj equal).2]
      exact congrArg some (List.inj_on_of_nodup_map (nodup_leading e.values) leads' leads same)
    · intro equal
      cases equal
      have listed : w' ∈ (ofSchema symbol e).variants.filter (·.number == d.number) :=
        List.mem_filter.2 ⟨declared, beq_iff_eq.2 number'⟩
      rw [own, List.mem_singleton] at listed
      exact listed ▸ name
  · have searched : (ofSchema symbol e).numbers.find? (·.1 == variant d.name) = some (w'.name, w'.number) := by
      rw [numbers, List.find?_append]
      exact Option.or_eq_some_iff.2 (.inl given)
    rw [toNumber?, searched, found]
    exact congrArg some number'

def twins : Schema.Enum :=
  ⟨"Color", [⟨"DARK_RED", 1⟩, ⟨"DarkRed", 0⟩]⟩

def twinField : Schema.Field :=
  ⟨"color", "color", 1, .enum, .optional, some ".shop.Color", none, false⟩

def twinSchema : Schema.File where
  name := "shop.proto"
  package := "shop"
  grammar := .proto2
  enums := [twins]
  messages := [⟨"Item", [twinField], [], [], [], false⟩]
  services := []

theorem declarations_twinSchema : twinSchema.declarations =
    [⟨".shop.Color", "Color", .enum twins⟩,
      ⟨".shop.Item", "Item", .message ⟨"Item", [twinField], [], [], [], false⟩⟩] := by
  rw [Schema.File.declarations_eq]
  rfl

theorem indexed_twinSchema : ∃ index, Schema.Index.ofFiles [twinSchema] = .ok index ∧
    index.HasEnum ".shop.Color" twins := by
  have built : ∃ index, Schema.Index.ofFiles [twinSchema] = .ok index := by
    rw [Schema.Index.ofFiles]
    simp only [List.flatMap_cons, List.flatMap_nil, declarations_twinSchema]
    exact ⟨_, rfl⟩
  obtain ⟨index, built⟩ := built
  have declared : ⟨".shop.Color", "Color", .enum twins⟩ ∈ twinSchema.declarations := by
    rw [declarations_twinSchema]
    exact List.mem_cons_self ..
  have found := (Schema.Index.find?_ofFiles built).2 ⟨twinSchema, List.mem_singleton_self _, _, declared, rfl, rfl⟩
  exact ⟨index, built, _, found, rfl⟩

theorem default_named_twins : ∃ index, Schema.Index.ofFiles [twinSchema] = .ok index ∧ ∃ path d w,
    twins.default? = some d ∧
      Base.ofField ⟨{ stringEnums := true }, index, twinSchema⟩ ".shop.Item" twinField ".shop.Item.color" =
        .ok (.primitive (.enum path true d.number (variant d.name))) ∧
      (ofSchema "Color" twins).variants.filter (·.number == d.number) = [w] ∧
      (w.name = variant d.name ↔ (leading twins.values).find? (variant ·.name == variant d.name) = some d) ∧
      (ofSchema "Color" twins).toNumber? (variant d.name) =
        ((leading twins.values).find? (variant ·.name == variant d.name)).map (·.number) := by
  obtain ⟨index, built, indexed⟩ := indexed_twinSchema
  exact ⟨index, built, default_named rfl rfl indexed (by decide) "Color"⟩

/-- The default of the field is the variant of another value. -/
theorem default_of_other :
    (Schema.Index.ofFiles [twinSchema] >>= fun index =>
      Base.ofField ⟨{ stringEnums := true }, index, twinSchema⟩ ".shop.Item" twinField ".shop.Item.color") =
        .ok (.primitive (.enum "Color" true 0 "DarkRed")) ∧
    (ofSchema "Color" twins).ofNumber 0 = "DarkRed_" ∧ (ofSchema "Color" twins).toNumber? "DarkRed" = some 1 := by
  refine ⟨?_, by decide, by decide⟩
  rw [Schema.Index.ofFiles]
  simp only [List.flatMap_cons, List.flatMap_nil, declarations_twinSchema]
  rfl

end Enumeration

end Target

end Protogen
