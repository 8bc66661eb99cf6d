import Protogen.Proofs.Rpc.Settled
import Protogen.Proofs.Shop.Response
import Protogen.Proofs.Shop.RoundTrip
import Protogen.Shop.Service

set_option autoImplicit false

namespace Protogen.Shop.Widgets

open Rpc (Channel Status Outcome LoadError encodeFrame decodeFrame)
open Rpc.Loader (Event loaded run)

variable {F : Form}

/-- The service answers for every identifier by itself, with a widget that is good, or answers every call
with one status. -/
inductive Pointwise (good : Widget F → Prop) (backend : Widgets F Id) : Prop
  | each (f : String → Widget F) (sound : ∀ id, good (f id))
      (answers : ∀ ids, backend.batchGet ⟨ids⟩ = .ok ⟨ids.map f⟩)
  | fails (status : Status) (answers : ∀ ids, backend.batchGet ⟨ids⟩ = .error status)

/-- Calls for batches reach the service behind the channel, and its answers come back. -/
structure Reaches (channel : Channel Id) (backend : Widgets F Id) : Prop where
  answered : ∀ b request response b', WidgetsRequest.codec.decode b = .ok request →
    backend.batchGet request = .ok response → (WidgetsResponse.codec F).encode response = .ok b' →
    channel.request (method "BatchGetWidgets") b = .ok b'
  failed : ∀ b request status, WidgetsRequest.codec.decode b = .ok request →
    backend.batchGet request = .error status → channel.request (method "BatchGetWidgets") b = .error status

-- The messages of a batch are short enough for their lengths to be read.
structure Fits (backend : Widgets F Id) (ids : List String) : Prop where
  request : ∀ b, WidgetsRequest.codec.encode ⟨ids⟩ = .ok b → b.size < 4294967296
  response : ∀ response b, backend.batchGet ⟨ids⟩ = .ok response →
    (WidgetsResponse.codec F).encode response = .ok b → b.size < 4294967296

-- The calls of a loader have all ended, each as a call of the client for its identifiers does.
structure Complete (client : Widgets F Id) (events : List (Event String (Widget F))) : Prop where
  answered : ∀ (c : Nat) (outcome : Outcome (Widget F)), .finish c outcome ∈ events →
    ∀ keys, (run events).calls[c]? = some keys → outcome = client.loadBatch keys
  queue : (run events).queue = none
  inFlight : (run events).inFlight = []

section

variable {backend service : Widgets F Id} {channel : Channel Id} {ids : List String} {id : String}

theorem exists_request (channel : Channel Id) (fits : backend.Fits ids) :
    ∃ b, WidgetsRequest.codec.decode b = .ok ⟨ids⟩ ∧ (ofChannel channel).batchGet ⟨ids⟩ =
      decodeFrame (WidgetsResponse.codec F) (channel.request (method "BatchGetWidgets") b) := by
  obtain ⟨b, encode, decode⟩ := MessageCodec.list_round_trip (m := WidgetsRequest.mk ids)
    (fun ids => (rfl : (WidgetsRequest.mk ids).ids = ids)) fun s _ => ValueCodec.carries_string 0 s
  have encoded : encodeFrame WidgetsRequest.codec ⟨ids⟩ = .ok b := congrArg (Except.mapError _) encode
  refine ⟨b, decode (fits.request b encode), ?_⟩
  simp only [ofChannel, Channel.unary, encoded]
  rfl

theorem batchGet_of_error (reaches : Reaches channel backend) (fits : backend.Fits ids) {status : Status}
    (answers : backend.batchGet ⟨ids⟩ = .error status) :
    (ofChannel channel).batchGet ⟨ids⟩ = (.error status : Except Status (WidgetsResponse F)) := by
  obtain ⟨b, arrives, sent⟩ := exists_request channel fits
  rw [sent, reaches.failed b ⟨ids⟩ status arrives answers]
  rfl

theorem batchGet_of_ok (reaches : Reaches channel backend) (fits : backend.Fits ids)
    {response : WidgetsResponse F} {b' : ByteArray} (answers : backend.batchGet ⟨ids⟩ = .ok response)
    (encode : (WidgetsResponse.codec F).encode response = .ok b') :
    (ofChannel channel).batchGet ⟨ids⟩ = decodeFrame (WidgetsResponse.codec F) (.ok b') := by
  obtain ⟨b, arrives, sent⟩ := exists_request channel fits
  rw [sent, reaches.answered b ⟨ids⟩ response b' arrives answers encode]

theorem batchGet_ofChannel (lawful : F.Lawful) (reaches : Reaches channel backend) (fits : backend.Fits ids)
    (good : ∀ response, backend.batchGet ⟨ids⟩ = .ok response → ∀ w ∈ response.widgets, w.Survives ∧ w.Low) :
    (ofChannel channel).batchGet ⟨ids⟩ = backend.batchGet ⟨ids⟩ := by
  cases answers : backend.batchGet ⟨ids⟩ with
  | error status => exact batchGet_of_error reaches fits answers
  | ok response =>
    have sound := good response answers
    have survive : ∀ w ∈ response.widgets, w.Survives := fun w member => (sound w member).1
    have low : ∀ w ∈ response.widgets, w.Low := fun w member => (sound w member).2
    obtain ⟨b, encode, -⟩ := MessageCodec.list_round_trip (m := response)
      (fun ws => (rfl : (WidgetsResponse.mk ws).widgets = ws))
      fun w member => Widget.carries_message lawful (survive w member) (low w member)
    have short := fits.response response b answers encode
    have decode := (WidgetsResponse.decode_eq_ok_iff lawful survive encode short).2 ⟨rfl, low⟩
    rw [batchGet_of_ok reaches fits answers encode]
    exact congrArg (Except.mapError _) decode

theorem get_congr (same : service.batchGet ⟨[id]⟩ = backend.batchGet ⟨[id]⟩) : service.get id = backend.get id := by
  rw [get, get, same]

theorem get_of_ok {w : Widget F} (answers : backend.batchGet ⟨[id]⟩ = .ok ⟨[w]⟩) :
    backend.get id = (.ok w : Except Status (Widget F)) := by
  rw [get, answers]
  rfl

theorem get_of_error {status : Status} (answers : backend.batchGet ⟨[id]⟩ = .error status) :
    backend.get id = (.error status : Except Status (Widget F)) := by
  rw [get, answers]
  rfl

theorem Pointwise.good_of_ok {good : Widget F → Prop} (pointwise : backend.Pointwise good) (ids : List String) :
    ∀ response, backend.batchGet ⟨ids⟩ = .ok response → ∀ w ∈ response.widgets, good w := by
  intro response answers w member
  cases pointwise with
  | fails status fails =>
    rw [fails] at answers
    cases answers
  | each f sound each =>
    rw [each] at answers
    cases answers
    obtain ⟨id, -, rfl⟩ := List.mem_map.1 member
    exact sound id

-- The call of a loader for a batch gives each identifier what a batch of its own would.
theorem resultAt_loadBatch {good : Widget F → Prop} (pointwise : backend.Pointwise good)
    (same : service.batchGet ⟨ids⟩ = backend.batchGet ⟨ids⟩) {i : Nat} (place : ids[i]? = some id) :
    (Outcome.resultAt (service.loadBatch ids) i).mapError LoadError.status = backend.get id := by
  cases pointwise with
  | fails status answers =>
    rw [get_of_error (answers [id]), loadBatch, same, answers]
    rfl
  | each f sound answers =>
    obtain ⟨lt, -⟩ := List.getElem?_eq_some_iff.1 place
    have found : (fanOut ids ⟨ids.map f⟩)[i]? = some (.ok (f id)) := by
      rw [fanOut, Rpc.byPosition, Rpc.getElem?_align _ _ _ lt]
      simp [place]
    rw [get_of_ok (answers [id]), loadBatch, same, answers]
    change ((fanOut ids ⟨ids.map f⟩).getD i _).mapError _ = _
    rw [List.getD_eq_getElem?_getD, found]
    rfl

end

/-- When its calls have all ended, every load has had the widget, or the status, that a batch of its own
identifier has, in the service as well as through the client. -/
theorem load_eq_get (S : OptionSet) {backend : Widgets S.form Id} {channel : Channel Id}
    {events : List (Event String (Widget S.form))}
    (pointwise : backend.Pointwise fun w => w.Survives ∧ w.Low) (reaches : Reaches channel backend)
    (complete : (ofChannel channel).Complete events)
    (fits : ∀ ids, ids ∈ (run events).calls ∨ (∃ id ∈ loaded events, ids = [id]) → backend.Fits ids)
    {n : Nat} {id : String} (load : (loaded events)[n]? = some id) :
    ∃ result, (run events).result? n = some result ∧
      result.mapError LoadError.status = backend.get id ∧
      result.mapError LoadError.status = (ofChannel channel).get id := by
  have same (ids : List String) (short : backend.Fits ids) :
      (ofChannel channel).batchGet ⟨ids⟩ = backend.batchGet ⟨ids⟩ :=
    batchGet_ofChannel S.lawful reaches short (pointwise.good_of_ok ids)
  have alone : (ofChannel channel).get id = backend.get id :=
    get_congr (same [id] (fits [id] (.inr ⟨id, List.mem_of_getElem? load, rfl⟩)))
  obtain ⟨result, found⟩ := Rpc.Loader.exists_settled complete.queue complete.inFlight load
  -- Each result was brought by a call, which has one that is right for every identifier in it.
  have right := Rpc.Loader.right_of_settled (fun key result => result.mapError LoadError.status = backend.get key)
    (fun c outcome finished keys made i key place => by
      have member := List.mem_of_getElem? made
      rw [complete.answered c outcome finished keys made]
      exact resultAt_loadBatch pointwise (same keys (fits keys (.inl member))) place)
    (Rpc.Loader.settled_of_result? found)
  obtain ⟨key, loadedKey, agrees⟩ := right
  rw [load] at loadedKey
  cases loadedKey
  exact ⟨result, found, agrees, agrees.trans alone.symm⟩

def shelf (f : String → Widget F) : Widgets F Id where
  batchGet request := .ok ⟨request.ids.map f⟩
  watch _ := []
  upload _ := .ok ⟨[]⟩

def served (backend : Widgets F Id) : Channel Id :=
  Channel.ofRequest fun _ b =>
    match WidgetsRequest.codec.decode b with
    | .error e => .error ⟨.internal, e.message⟩
    | .ok request => Except.bind (backend.batchGet request) (encodeFrame (WidgetsResponse.codec F))

theorem reaches_served (backend : Widgets F Id) : Reaches (served backend) backend where
  answered b request response b' arrives answers encode := by
    have frame : encodeFrame (WidgetsResponse.codec F) response = .ok b' := congrArg (Except.mapError _) encode
    simp only [served, Channel.ofRequest, arrives]
    rw [answers]
    exact frame
  failed b request status arrives answers := by
    simp only [served, Channel.ofRequest, arrives]
    rw [answers]
    rfl

theorem fits_of_sizes {backend : Widgets F Id} {ids : List String} {response : WidgetsResponse F} {m n : Nat}
    (answers : backend.batchGet ⟨ids⟩ = .ok response)
    (request : (WidgetsRequest.codec.encode ⟨ids⟩).toOption.map ByteArray.size = some m)
    (reply : ((WidgetsResponse.codec F).encode response).toOption.map ByteArray.size = some n)
    (short : m < 4294967296 ∧ n < 4294967296) : backend.Fits ids where
  request b encode := by
    rw [encode] at request
    cases request
    exact short.1
  response response' b answers' encode := by
    rw [answers] at answers'
    cases answers'
    rw [encode] at reply
    cases reply
    exact short.2

def together (channel : Channel Id) (ids : List String) : List (Event String (Widget F)) :=
  ids.map .load ++ [.dispatch, .finish 0 ((ofChannel channel).loadBatch ids)]

theorem complete_together {channel : Channel Id} {ids : List String}
    (calls : (run (together (F := F) channel ids)).calls = [ids])
    (queue : (run (together (F := F) channel ids)).queue = none)
    (inFlight : (run (together (F := F) channel ids)).inFlight = []) :
    (ofChannel (F := F) channel).Complete (together channel ids) where
  answered c outcome finished keys made := by
    obtain ⟨rfl, rfl⟩ : c = 0 ∧ outcome = _ := by simpa [together] using finished
    rw [calls] at made
    cases made
    rfl
  queue := queue
  inFlight := inFlight

def lone : Widgets Form.plain Id :=
  shelf fun _ => { Widget.base .plain with sizes := [7] }

set_option maxRecDepth 4000 in
theorem load_eq_get_twice :
    ∃ result, (run (together (served lone) ["a", "a"])).result? 1 = some result ∧
      result.mapError LoadError.status = lone.get "a" ∧
      result.mapError LoadError.status = (ofChannel (served lone)).get "a" := by
  have survives : ({ Widget.base .plain with sizes := [7] } : Widget Form.plain).Survives :=
    ⟨⟨#[0x1A, 0x01, 0x07]⟩, by cbv, by cbv⟩
  have pointwise : lone.Pointwise fun w => w.Survives ∧ w.Low :=
    .each _ (fun _ => ⟨survives, List.forall_mem_nil _⟩) fun _ => rfl
  have both : lone.Fits ["a", "a"] := fits_of_sizes (m := 6) (n := 10) rfl (by cbv) (by cbv) (by decide)
  have one : lone.Fits ["a"] := fits_of_sizes (m := 3) (n := 5) rfl (by cbv) (by cbv) (by decide)
  refine load_eq_get .defaults pointwise (reaches_served lone) (complete_together rfl rfl rfl) ?_ rfl
  rintro ids (called | ⟨id, asked, rfl⟩)
  · have same : ids = ["a", "a"] := List.mem_singleton.1 called
    exact same ▸ both
  · have same : id = "a" := by simpa [together, loaded, Event.key?] using asked
    exact same ▸ one

-- Without a level to spare, a widget spoils the batches that it is in.

def chain : Nat → Part
  | 0 => ⟨"", none⟩
  | n + 1 => ⟨"", some (chain n)⟩

def high : Widget Form.plain :=
  { Widget.base .plain with parts := [chain 99] }

theorem height_chain (n : Nat) : (chain n).height = n + 1 := by
  induction n with
  | zero => rfl
  | succ n ih => rw [chain, Part.height, ih]

set_option maxRecDepth 4000 in
theorem survives_high : high.Survives := by
  have low : ∀ p ∈ high.parts, p.height ≤ 100 := by simp [high, height_chain]
  obtain ⟨b, encode, decode⟩ := Widget.round_trip .defaults (w := high) trivial (.inl rfl) low
  have size : ((Widget.codec Form.plain).encode high).toOption.map ByteArray.size = some 236 := by cbv
  rw [encode] at size
  refine ⟨b, encode, decode ?_⟩
  have short : b.size = 236 := Option.some.inj size
  omega

def uneven : Widgets Form.plain Id :=
  shelf fun id => if id = "high" then high else Widget.base .plain

def pair : List (Event String (Widget Form.plain)) :=
  together (served uneven) ["high", "a"]

theorem answers_uneven : uneven.batchGet ⟨["high", "a"]⟩ = .ok ⟨[high, Widget.base .plain]⟩ :=
  rfl

theorem survives_base : (Widget.base Form.plain).Survives :=
  ⟨.empty, rfl, rfl⟩

set_option maxRecDepth 4000 in
theorem size_uneven : ((WidgetsResponse.codec Form.plain).encode ⟨[high, Widget.base .plain]⟩).toOption.map
    ByteArray.size = some 241 := by
  cbv

set_option maxRecDepth 4000 in
theorem fits_uneven : uneven.Fits ["high", "a"] :=
  fits_of_sizes (m := 9) answers_uneven (by cbv) size_uneven (by decide)

theorem batchGet_uneven : ∃ status, (ofChannel (served uneven)).batchGet ⟨["high", "a"]⟩ =
    (.error status : Except Status (WidgetsResponse Form.plain)) := by
  have size := size_uneven
  cases encode : (WidgetsResponse.codec Form.plain).encode ⟨[high, Widget.base .plain]⟩ with
  | error e =>
    rw [encode] at size
    cases size
  | ok b =>
    have short := fits_uneven.response _ b answers_uneven encode
    have survive : ∀ w ∈ [high, Widget.base .plain], w.Survives := by
      simp [survives_high, survives_base]
    rw [batchGet_of_ok (reaches_served uneven) fits_uneven answers_uneven encode]
    cases decode : (WidgetsResponse.codec Form.plain).decode b with
    | error e => exact ⟨_, congrArg (Except.mapError _) decode⟩
    | ok response =>
      obtain ⟨-, low⟩ := (WidgetsResponse.decode_eq_ok_iff Form.lawful_plain survive encode short).1 decode
      have height : (chain 99).height ≤ 99 :=
        low high (List.mem_cons_self ..) (chain 99) (List.mem_singleton_self _)
      rw [height_chain] at height
      omega

set_option maxRecDepth 4000 in
/-- Widgets that survive their own encodings are not enough: in the company of one that leaves no level to
spare, a widget is lost to the loader which a batch of its own brings. -/
theorem load_ne_get : ¬∀ (backend : Widgets OptionSet.defaults.form Id) (channel : Channel Id)
    (events : List (Event String (Widget OptionSet.defaults.form))),
    backend.Pointwise Widget.Survives → Reaches channel backend → (ofChannel channel).Complete events →
    (∀ ids, ids ∈ (run events).calls ∨ (∃ id ∈ loaded events, ids = [id]) → backend.Fits ids) →
    ∀ n id, (loaded events)[n]? = some id → ∃ result, (run events).result? n = some result ∧
      (result.mapError LoadError.status = backend.get id ∨
        result.mapError LoadError.status = (ofChannel channel).get id) := by
  intro always
  obtain ⟨status, lost⟩ := batchGet_uneven
  have one : uneven.Fits ["a"] :=
    fits_of_sizes (m := 3) (n := 2) rfl (by cbv) (by cbv) (by decide)
  have other : uneven.Fits ["high"] :=
    fits_of_sizes (m := 6) (n := 239) rfl (by cbv) (by cbv) (by decide)
  have pointwise : uneven.Pointwise Widget.Survives := by
    refine .each _ (fun id => ?_) fun _ => rfl
    split
    next => exact survives_high
    next => exact survives_base
  have fits : ∀ ids, ids ∈ (run pair).calls ∨ (∃ id ∈ loaded pair, ids = [id]) → uneven.Fits ids := by
    rintro ids (called | ⟨id, asked, rfl⟩)
    · have same : ids = ["high", "a"] := List.mem_singleton.1 called
      exact same ▸ fits_uneven
    · have named : id = "high" ∨ id = "a" := by simpa [pair, together, loaded, Event.key?] using asked
      rcases named with rfl | rfl
      · exact other
      · exact one
  obtain ⟨result, found, agrees⟩ := always uneven (served uneven) pair pointwise (reaches_served uneven)
    (complete_together rfl rfl rfl) fits 1 "a" rfl
  -- The one call fails, and with it the load of the widget that could have been read.
  have call : (ofChannel (served uneven)).loadBatch ["high", "a"] = (.failed status : Outcome (Widget Form.plain)) := by
    rw [loadBatch, lost]
    rfl
  have brought : (run pair).result? 1 = some (.error (.batch status)) := by
    rw [pair, together, call]
    rfl
  rw [brought] at found
  cases found
  have alone : uneven.get "a" = (.ok (Widget.base .plain) : Except Status (Widget Form.plain)) := get_of_ok rfl
  have sound : ∀ response, uneven.batchGet ⟨["a"]⟩ = .ok response →
      ∀ w ∈ response.widgets, w.Survives ∧ w.Low := by
    rintro _ ⟨⟩ w member
    obtain rfl : w = Widget.base .plain := List.mem_singleton.1 member
    exact ⟨survives_base, List.forall_mem_nil _⟩
  have client := get_congr (batchGet_ofChannel Form.lawful_plain (reaches_served uneven) one sound)
  rw [client, alone, or_self] at agrees
  cases agrees

end Protogen.Shop.Widgets
