import Protogen.Rpc.Channel
import Protogen.Rpc.Retry.Run

set_option autoImplicit false

namespace Protogen.Rpc

inductive Reply
  | frame (frame : Frame)
  | stream (frames : List Frame)

def noReply : Status :=
  ⟨.unimplemented, "no reply scripted"⟩

namespace Reply

def response : Reply → Frame
  | .frame f => f
  | .stream fs => fs.headD (.error noReply)

-- The reply to a call with a stream of responses. A single frame is a stream of one.
def responses : Reply → List Frame
  | .frame f => [f]
  | .stream fs => fs

end Reply

structure Script (γ : Type) where
  replies : List Reply
  calls : List γ

abbrev Scripted (γ : Type) := StateM (Script γ)

inductive CallKind
  | request
  | serverStreaming
  | clientStreaming
  | bidiStreaming

-- What a call carries: one request, or a stream of them.
inductive Payload
  | request (bytes : ByteArray)
  | stream (frames : List Frame)

structure Call where
  kind : CallKind
  method : Method
  payload : Payload
  -- The tenant that a call is made for, as the other side reads it.
  tenant : Option String

namespace Script

variable {γ : Type}

def take (call : γ) : Scripted γ Reply := fun s =>
  (s.replies.headD (.frame (.error noReply)), ⟨s.replies.tail, s.calls ++ [call]⟩)

def takeRetrying (p : Retry.Policy) (call : γ) : Scripted γ (List Frame) := fun s =>
  let attempts := s.replies.map Reply.responses ++ [[.error noReply]]
  let r := Retry.readToEnd p attempts
  (r.items, ⟨s.replies.drop r.connections, s.calls ++ List.replicate r.connections call⟩)

-- A value of metadata can be read if all its characters are visible.
def visible? (text : String) : Option String :=
  if text.toList.all fun c => c == '\t' || (' ' ≤ c && c ≤ '~') then some text else none

def channel (tenant : Option String) : Channel (Scripted Call) where
  request method bytes := do
    return (← take ⟨.request, method, .request bytes, tenant.bind visible?⟩).response
  serverStreaming method bytes := do
    return (← take ⟨.serverStreaming, method, .request bytes, tenant.bind visible?⟩).responses
  clientStreaming method frames := do
    return (← take ⟨.clientStreaming, method, .stream frames, tenant.bind visible?⟩).response
  bidiStreaming method frames := do
    return (← take ⟨.bidiStreaming, method, .stream frames, tenant.bind visible?⟩).responses

-- The channel of a script on which streams of responses are made anew after transient failures.
def retryingChannel (p : Retry.Policy) (tenant : Option String) : Channel (Scripted Call) :=
  { channel tenant with
    serverStreaming := fun method bytes =>
      takeRetrying p ⟨.serverStreaming, method, .request bytes, tenant.bind visible?⟩ }

end Script

end Protogen.Rpc
