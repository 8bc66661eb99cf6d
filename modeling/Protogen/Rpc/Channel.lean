import Protogen.Codec.Message
import Protogen.Rpc.Status

set_option autoImplicit false

namespace Protogen.Rpc

structure Method where
  service : String
  name : String
  deriving DecidableEq

namespace Method

def text (m : Method) : String :=
  m.service ++ "/" ++ m.name

def path (m : Method) : String :=
  "/" ++ m.text

end Method

abbrev Frame := Except Status ByteArray

/-- What carries calls. -/
structure Channel (m : Type → Type) where
  request : Method → ByteArray → m Frame
  serverStreaming : Method → ByteArray → m (List Frame)
  clientStreaming : Method → List Frame → m Frame
  bidiStreaming : Method → List Frame → m (List Frame)

def unsupported (method : Method) : Status :=
  ⟨.unimplemented, method.text ++ " is not supported by this Rpc"⟩

def Channel.ofRequest {m : Type → Type} [Monad m] (request : Method → ByteArray → m Frame) :
    Channel m where
  request := request
  serverStreaming method _ := pure [.error (unsupported method)]
  clientStreaming method _ := pure (.error (unsupported method))
  bidiStreaming method _ := pure [.error (unsupported method)]

section

variable {α : Type}

def encodeFrame (c : MessageCodec α) (a : α) : Frame :=
  (c.encode a).mapError fun e => ⟨.internal, "failed to encode request: " ++ e.message⟩

def decodeFrame (c : MessageCodec α) (frame : Frame) : Except Status α := do
  (c.decode (← frame)).mapError fun e => ⟨.internal, "failed to decode response: " ++ e.message⟩

end

namespace Channel

variable {m : Type → Type} [Monad m] {α β : Type}

-- Makes a call with one request. One that cannot be written makes no call.
def unary (channel : Channel m) (method : Method) (requests : MessageCodec α)
    (responses : MessageCodec β) (request : α) : m (Except Status β) :=
  match encodeFrame requests request with
  | .error status => pure (.error status)
  | .ok bytes => do return decodeFrame responses (← channel.request method bytes)

def serverStream (channel : Channel m) (method : Method) (requests : MessageCodec α)
    (responses : MessageCodec β) (request : α) : m (List (Except Status β)) :=
  match encodeFrame requests request with
  | .error status => pure [.error status]
  | .ok bytes => do
    return (← channel.serverStreaming method bytes).map (decodeFrame responses)

def clientStream (channel : Channel m) (method : Method) (requests : MessageCodec α)
    (responses : MessageCodec β) (stream : List α) : m (Except Status β) := do
  return decodeFrame responses
    (← channel.clientStreaming method (stream.map (encodeFrame requests)))

def bidiStream (channel : Channel m) (method : Method) (requests : MessageCodec α)
    (responses : MessageCodec β) (stream : List α) : m (List (Except Status β)) := do
  return (← channel.bidiStreaming method (stream.map (encodeFrame requests))).map
    (decodeFrame responses)

end Channel

end Protogen.Rpc
