import Protogen.Rpc.Channel
import Protogen.Rpc.Loader.Basic
import Protogen.Shop.Widget

set_option autoImplicit false

namespace Protogen.Shop

open Rpc (Channel Status Outcome Loader LoadError)

structure Widgets (F : Form) (m : Type → Type) where
  batchGet : WidgetsRequest → m (Except Status (WidgetsResponse F))
  watch : Widget F → m (List (Except Status (Widget F)))
  upload : List (Widget F) → m (Except Status (WidgetsResponse F))

namespace Widgets

def method (name : String) : Rpc.Method :=
  ⟨"shop.Widgets", name⟩

variable {F : Form} {m : Type → Type} [Monad m]

def ofChannel (channel : Channel m) : Widgets F m where
  batchGet :=
    channel.unary (method "BatchGetWidgets") WidgetsRequest.codec (WidgetsResponse.codec F)
  watch := channel.serverStream (method "WatchWidget") (Widget.codec F) (Widget.codec F)
  upload :=
    channel.clientStream (method "UploadWidgets") (Widget.codec F) (WidgetsResponse.codec F)

def fanOut (ids : List String) (response : WidgetsResponse F) :
    List (Except LoadError (Widget F)) :=
  Rpc.byPosition ids.length response.widgets

def get (service : Widgets F m) (id : String) : m (Except Status (Widget F)) := do
  match ← service.batchGet ⟨[id]⟩ with
  | .error status => return .error status
  | .ok response => return Rpc.single (fanOut [id] response)

def loadBatch (service : Widgets F m) (ids : List String) : m (Outcome (Widget F)) := do
  match ← service.batchGet ⟨ids⟩ with
  | .error status => return .failed status
  | .ok response => return .answered (fanOut ids response)

def getTogether (service : Widgets F m) (ids : List String) :
    m (List (Except Status (Widget F))) := do
  let l ← (Loader.empty.loadAll ids).settle service.loadBatch
  return (List.range ids.length).map fun load =>
    ((l.result? load).getD (.error .cancelled)).mapError LoadError.status

end Widgets

end Protogen.Shop
