import Protogen.Proofs.Target.Batches
import Protogen.Target.Service

set_option autoImplicit false

namespace Protogen.Target

open Schema (Index)

variable {ctx : Context} {m : Schema.Method} {s : Schema.Service}

theorem Service.gives_ofSchema (sound : ctx.index.Sound) (valid : ∀ m ∈ s.methods, m.Valid ctx.index) :
    Gives (Service.ofSchema ctx s) fun service =>
      ∀ b ∈ service.batches, ∃ m ∈ service.methods, m.name = b.method.name := by
  have methods : Gives (s.methods.mapM fun m => do
      return {
        name := m.name
        ident := Naming.fieldIdent m.name
        request := ← ctx.path m.input ""
        response := ← ctx.path m.output ""
        clientStreaming := m.clientStreaming
        serverStreaming := m.serverStreaming : Method })
      (List.Forall₂ (fun m method => method.name = m.name) s.methods) := by
    refine .mapM fun m member => ?_
    obtain ⟨⟨_, e, asked, -⟩, ⟨_, e', answered, -⟩⟩ := valid m member
    exact (gives_path asked "").bind fun _ _ => (gives_path answered "").bind fun _ _ => .ok rfl
  refine methods.bind fun ms named => ?_
  refine (BatchMethod.gives_ofService sound valid).bind fun batches selected => .ok fun b member => ?_
  obtain ⟨places, selects⟩ := selected
  obtain ⟨i, -, m, here, own⟩ := exists_of_forall₂ selects.each b member
  obtain ⟨method, declared, same⟩ := exists_of_forall₂ named.flip m (List.mem_of_getElem? here)
  exact ⟨method, declared, own.method.symm ▸ same⟩

-- Steps that add at most what they are for add it in order.
theorem sublist_of_foldlM {α β ε : Type} {step : List β → α → Except ε (List β)} (tell : β → α)
    (adds : ∀ bs a bs', step bs a = .ok bs' → bs' = bs ∨ ∃ b, tell b = a ∧ bs' = bs ++ [b]) {as : List α}
    {bs bs' : List β} (success : as.foldlM step bs = .ok bs') :
    ∃ more, bs' = bs ++ more ∧ (more.map tell).Sublist as := by
  induction as generalizing bs with
  | nil =>
    cases success
    exact ⟨[], (List.append_nil _).symm, .slnil⟩
  | cons a as ih =>
    rw [List.foldlM_cons] at success
    obtain ⟨next, step, success⟩ := ok_of_bind success
    obtain ⟨more, rfl, sublist⟩ := ih success
    obtain rfl | ⟨b, rfl, rfl⟩ := adds bs a next step
    · exact ⟨more, rfl, sublist.cons a⟩
    · exact ⟨b :: more, by simp, sublist.cons_cons _⟩

theorem BatchMethod.sublist_ofService {batches : List BatchMethod} (found : ofService ctx s = .ok batches) :
    (batches.map (·.method)).Sublist s.methods := by
  refine Exists.elim (sublist_of_foldlM (·.method) ?adds found) fun more both => by simpa [both.1] using both.2
  case adds =>
    intro bs m bs' step
    obtain ⟨b?, made, step⟩ := ok_of_bind step
    split at step
    next =>
      cases step
      exact .inl rfl
    next b =>
      split at step
      next =>
        cases step
        exact .inl rfl
      next =>
        cases step
        exact .inr ⟨b, (for_of_some made).method, rfl⟩

theorem Service.named_ofSchema {service : Service} (mapped : ofSchema ctx s = .ok service) :
    service.fullName = (if ctx.file.package.isEmpty then s.name else ctx.file.package ++ "." ++ s.name) ∧
      service.methods.map (·.name) = s.methods.map (·.name) ∧
      (service.batches.map (·.method)).Sublist s.methods := by
  obtain ⟨methods, each, mapped⟩ := ok_of_bind mapped
  obtain ⟨batches, found, mapped⟩ := ok_of_bind mapped
  cases mapped
  refine ⟨rfl, ?_, BatchMethod.sublist_ofService found⟩
  have named : List.Forall₂ (· = ·) (s.methods.map (·.name)) (methods.map (·.name)) := by
    rw [List.forall₂_map_left_iff, List.forall₂_map_right_iff]
    refine (forall₂_of_mapM each).imp fun m method mapped => ?_
    obtain ⟨request, -, mapped⟩ := ok_of_bind mapped
    obtain ⟨response, -, mapped⟩ := ok_of_bind mapped
    cases mapped
    rfl
  rw [List.forall₂_eq_eq_eq] at named
  exact named.symm

theorem Service.bulk_ofSchema {service : Service} (mapped : ofSchema ctx s = .ok service) :
    ∀ b ∈ service.batches, ∃ m ∈ service.methods, m.name = b.method.name := by
  obtain ⟨-, names, sublist⟩ := named_ofSchema mapped
  intro b member
  have own : b.method.name ∈ s.methods.map (·.name) :=
    List.mem_map_of_mem (sublist.subset (List.mem_map_of_mem member))
  rw [← names] at own
  exact List.mem_map.1 own

end Protogen.Target
