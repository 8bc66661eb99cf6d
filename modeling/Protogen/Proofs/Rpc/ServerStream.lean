import Mathlib
import Protogen.Proofs.Rpc.Retry
import Protogen.Rpc.Script
import Protogen.Shop.Service

set_option autoImplicit false

namespace Protogen.Rpc

open Retry

variable {α β : Type}

/-- At most one item is a failure, and nothing comes after it. -/
structure EndsAtFailure (items : List (Except Status α)) : Prop where
  once : items.countP (!·.isOk) ≤ 1
  last : ∀ before status after, items = before ++ .error status :: after → after = []

theorem endsAtFailure_of_last {items : List (Except Status α)}
    (last : ∀ before status after, items = before ++ .error status :: after → after = []) :
    EndsAtFailure items := by
  refine ⟨?_, last⟩
  induction items with
  | nil => exact Nat.zero_le _
  | cons item items ih =>
    cases item with
    | ok a =>
      have rest := ih fun before status after here => last (.ok a :: before) status after (by rw [here]; rfl)
      simpa [Except.isOk, Except.toBool] using rest
    | error status =>
      cases last [] status items rfl
      exact Nat.le_refl 1

theorem decodeFrame_eq (c : MessageCodec β) (bytes : ByteArray) :
    decodeFrame c (.ok bytes) =
      (c.decode bytes).mapError fun e => ⟨.internal, "failed to decode response: " ++ e.message⟩ :=
  rfl

theorem decodeFrame_ok (c : MessageCodec β) (bytes : ByteArray) :
    (∃ b, decodeFrame c (.ok bytes) = .ok b) ↔ ∃ b, c.decode bytes = .ok b := by
  rw [decodeFrame_eq]
  cases c.decode bytes <;> simp [Except.mapError]

-- Where statuses come last, the failures with more items after them are those of reading.
theorem endsAtFailure_map_iff {c : MessageCodec β} {frames : List Frame}
    (last : ∀ before status after, frames = before ++ .error status :: after → after = []) :
    EndsAtFailure (frames.map (decodeFrame c)) ↔
      ∀ before bytes after, frames = before ++ .ok bytes :: after → after ≠ [] →
        ∃ b, c.decode bytes = .ok b := by
  constructor
  · intro ends before bytes after here more
    rw [← decodeFrame_ok]
    cases read : decodeFrame c (.ok bytes) with
    | ok b => exact ⟨b, rfl⟩
    | error status =>
      have nothing := ends.last (before.map (decodeFrame c)) status (after.map (decodeFrame c)) (by
        rw [here, List.map_append, List.map_cons, read])
      exact absurd (List.map_eq_nil_iff.1 nothing) more
  · intro decodes
    apply endsAtFailure_of_last
    intro before status after here
    obtain ⟨before', rest, parts, -, follows⟩ := List.map_eq_append_iff.1 here
    obtain ⟨frame, after', rfl, read, rfl⟩ := List.map_eq_cons_iff.1 follows
    cases frame with
    | error status' => rw [last before' status' after' parts, List.map_nil]
    | ok bytes =>
      by_cases more : after' = []
      · rw [more, List.map_nil]
      · obtain ⟨b, decoded⟩ := (decodeFrame_ok c bytes).2 (decodes before' bytes after' parts more)
        rw [decoded] at read
        cases read

namespace Retry

variable {p : Policy} {attempts : List (Attempt α)} {k k' : Nat}

theorem EndsWith.unique (ends : EndsWith p attempts k) (ends' : EndsWith p attempts k') : k = k' := by
  rcases Nat.lt_trichotomy k k' with before | same | after
  · exact absurd (ends'.passing k before) ends.last
  · exact same
  · exact absurd (ends.passing k' after) ends'.last

theorem last_of_itemsUpTo (ends : EndsWith p attempts k) {before after : List (Except Status α)} {status : Status}
    (here : itemsUpTo attempts k = before ++ .error status :: after) :
    after = [] ∧ p.isTransient status.code = false := by
  rw [itemsUpTo] at here
  cases failed : (brought attempts k).failure? with
  | none =>
    have member : .error status ∈ before ++ .error status :: after := by simp
    rw [← here, failed] at member
    simp at member
  | some status' =>
    rw [failed] at here
    rcases List.eq_nil_or_concat after with rfl | ⟨init, item, rfl⟩
    · have same := List.append_inj_right' here rfl
      simp at same
      refine ⟨rfl, ?_⟩
      subst same
      simpa using fun transient => ends.last ⟨_, failed, transient⟩
    · rw [List.concat_eq_append, ← List.cons_append, ← List.append_assoc] at here
      have same := List.append_inj_left' here rfl
      have member : .error status ∈ before ++ .error status :: init := by simp
      rw [← same] at member
      simp at member

end Retry

namespace Script

-- What the connections of a script bring: its replies, and after them the refusal of calls that have none.
def attempts (s : Script Call) : List (Attempt ByteArray) :=
  s.replies.map Reply.responses ++ [[.error noReply]]

section

variable {p : Policy} {tenant : Option String} {method : Method} {requests : MessageCodec α} {request : α}
  {bytes : ByteArray} {responses : MessageCodec β} {s : Script Call} {k : Nat}

theorem serverStream_eq (encodes : requests.encode request = .ok bytes) (ends : EndsWith p s.attempts k) :
    ((retryingChannel p tenant).serverStream method requests responses request s).1 =
      (itemsUpTo s.attempts k).map (decodeFrame responses) := by
  obtain ⟨run, ended⟩ := run_readAll p (.start s.attempts)
  rw [← (run.ends ends ended).1]
  simp only [Channel.serverStream, encodeFrame, encodes, Except.mapError]
  rfl

/-- The typed stream has the items of the frames up to the last connection, of which a status is the last. So a failure
ends it exactly where every frame with another item after it can be read; a reader that stops early has a part of it. -/
theorem endsAtFailure_iff (encodes : requests.encode request = .ok bytes) (p : Policy) (tenant : Option String)
    (method : Method) (responses : MessageCodec β) (s : Script Call) :
    ∃ k, EndsWith p s.attempts k ∧
      let frames := itemsUpTo s.attempts k
      let stream := ((retryingChannel p tenant).serverStream method requests responses request s).1
      stream = frames.map (decodeFrame responses) ∧
      (∀ before status after, frames = before ++ .error status :: after →
        after = [] ∧ p.isTransient status.code = false) ∧
      (EndsAtFailure stream ↔
        ∀ before bytes after, frames = before ++ .ok bytes :: after → after ≠ [] →
          ∃ b, responses.decode bytes = .ok b) ∧
      ∀ items t, Run p (.start s.attempts) items t → items.map (decodeFrame responses) <+: stream := by
  obtain ⟨k, ends⟩ := exists_endsWith p s.attempts
  refine ⟨k, ends, serverStream_eq encodes ends, fun _ _ _ => last_of_itemsUpTo ends, ?_, ?_⟩
  · rw [serverStream_eq encodes ends]
    exact endsAtFailure_map_iff fun _ _ _ here => (last_of_itemsUpTo ends here).1
  · intro items t run
    rw [serverStream_eq encodes ends]
    apply List.IsPrefix.map
    have whole := run.whole
    rw [Stream.whole_start ends] at whole
    exact ⟨_, (congrArg Course.items whole).symm⟩

end

open Shop (Widget)

def watched (p : Policy) (s : Script Call) : List (Except Status (Widget .texts)) :=
  ((retryingChannel p none).serverStream (Shop.Widgets.method "WatchWidget") (Widget.codec .texts)
    (Widget.codec .texts) (Widget.base .texts) s).1

def reconnected : Script Call :=
  ⟨[.stream [.ok ⟨#[0x0a, 0x01, 0x31]⟩, .error ⟨.unavailable, "down"⟩],
    .stream [.ok ⟨#[0x0a, 0x01, 0x32]⟩, .error ⟨.notFound, "gone"⟩]], []⟩

set_option maxRecDepth 4000 in
theorem encode_base : (Widget.codec .texts).encode (Widget.base .texts) = .ok ⟨#[]⟩ := by
  cbv

set_option maxRecDepth 4000 in
theorem endsAtFailure_reconnected :
    (Widget.codec .texts).encode (Widget.base .texts) = .ok ⟨#[]⟩ ∧
      EndsAtFailure (watched ⟨3000, [.unavailable]⟩ reconnected) := by
  refine ⟨encode_base, ?_⟩
  obtain ⟨k, ends, -, -, ends_iff, -⟩ := endsAtFailure_iff encode_base ⟨3000, [.unavailable]⟩ none
    (Shop.Widgets.method "WatchWidget") (Widget.codec .texts) reconnected
  have second : EndsWith ⟨3000, [.unavailable]⟩ reconnected.attempts 1 :=
    endsWith_succ.2 ⟨⟨_, rfl, by decide⟩, endsWith_zero.2 fun ⟨_, failed, passes⟩ => by cases failed; cases passes⟩
  cases ends.unique second
  apply ends_iff.2
  intro before bytes after here _
  have member : .ok bytes ∈ itemsUpTo reconnected.attempts 1 := here ▸ List.mem_append_right _ List.mem_cons_self
  have frames : itemsUpTo reconnected.attempts 1 =
      [.ok ⟨#[0x0a, 0x01, 0x31]⟩, .ok ⟨#[0x0a, 0x01, 0x32]⟩, .error ⟨.notFound, "gone"⟩] := by rfl
  simp only [frames, List.mem_cons, Except.ok.injEq, reduceCtorEq, List.not_mem_nil, or_false] at member
  rcases member with rfl | rfl
  · exact ⟨{ Widget.base .texts with id := "1" }, by cbv⟩
  · exact ⟨{ Widget.base .texts with id := "2" }, by cbv⟩

def unreadable : Script Call :=
  ⟨[.stream [.ok ⟨#[0x0a, 0xff]⟩, .ok ⟨#[0x0a, 0x01, 0x32]⟩]], []⟩

set_option maxRecDepth 4000 in
theorem widget_after_failure :
    watched {} unreadable =
        [.error ⟨.internal, "failed to decode response: unexpected end of buffer"⟩,
          .ok { Widget.base .texts with id := "2" }] ∧
      ¬EndsAtFailure (watched {} unreadable) := by
  have first : EndsWith {} unreadable.attempts 0 := endsWith_zero.2 fun ⟨_, failed, _⟩ => nomatch failed
  have items : watched {} unreadable =
      [.error ⟨.internal, "failed to decode response: unexpected end of buffer"⟩,
        .ok { Widget.base .texts with id := "2" }] := by
    have unread : (Widget.codec .texts).decode ⟨#[0x0a, 0xff]⟩ = .error .truncated := by cbv
    have read : (Widget.codec .texts).decode ⟨#[0x0a, 0x01, 0x32]⟩ =
        .ok { Widget.base .texts with id := "2" } := by cbv
    have frames : itemsUpTo unreadable.attempts 0 = [.ok ⟨#[0x0a, 0xff]⟩, .ok ⟨#[0x0a, 0x01, 0x32]⟩] := by rfl
    rw [watched, serverStream_eq encode_base first, frames]
    simp only [List.map_cons, List.map_nil, decodeFrame_eq, unread, read, Except.mapError]
    rfl
  refine ⟨items, fun ends => ?_⟩
  rw [items] at ends
  exact List.cons_ne_nil _ _ (ends.last [] _ _ (List.nil_append _).symm)

end Script

end Protogen.Rpc
