import Protogen.Code.Writer
import Protogen.Target.Service

set_option autoImplicit false

namespace Protogen.Code

open Target (BatchMethod Method Service)

def boxFuture : String := "::protoweave::futures_util::future::BoxFuture"

def boxStream : String := "::protoweave::futures_util::stream::BoxStream"

def status : String := "::protoweave::tonic::Status"

def metadata : String := "::protoweave::tonic::metadata::MetadataMap"

def signature (m : Method) : String :=
  let input :=
    if m.clientStreaming then "requests: " ++ boxStream ++ "<'static, " ++ m.request ++ ">"
    else "request: " ++ m.request
  let output :=
    if m.serverStreaming then
      boxStream ++ "<'static, Result<" ++ m.response ++ ", " ++ status ++ ">>"
    else boxFuture ++ "<'_, Result<" ++ m.response ++ ", " ++ status ++ ">>"
  "fn " ++ m.ident ++ "(&self, " ++ input ++ ") -> " ++ output

def accessorSignature (b : BatchMethod) : String :=
  "fn " ++ b.accessor ++ "(&self, " ++ b.param ++ ": " ++ b.keyType ++ ") -> " ++ boxFuture ++
    "<'_, Result<" ++ b.valueType ++ ", " ++ status ++ ">>"

def results (b : BatchMethod) : String :=
  if b.keyed then "::protoweave::batch::by_key(&keys, response." ++ b.outputField ++ ")"
  else "::protoweave::batch::by_position(keys.len(), response." ++ b.outputField ++ ")"

def bulkRequest (b : BatchMethod) : Block :=
  .line ("let request = " ++ b.requestPath ++ " \x7b " ++ b.inputField ++ ": keys.clone() \x7d;")

def provided (b : BatchMethod) : List Block := [
  .blank,
  .line ("/// Single-key form of `" ++ b.bulk ++ "`."),
  block (accessorSignature b) [
    .block "Box::pin(async move" [
      .line ("let keys = vec![" ++ b.param ++ "];"),
      bulkRequest b,
      .line ("let response = self." ++ b.bulk ++ "(request).await?;"),
      .line ("::protoweave::batch::single(" ++ results b ++ ")")] "\x7d)"]]

def serviceTrait (s : Service) : Block :=
  block ("pub trait " ++ s.name ++ ": Send + Sync") (
    s.methods.map (fun m => .line (signature m ++ ";")) ++ s.batches.flatMap provided)

-- Makes the loader of an accessor. The bulk call is `call`, which uses the `captures`.
def makeLoader (b : BatchMethod) (captures : List String) (call : Line) : Block :=
  let clones : List Block := captures.map fun c : String => .line ("let " ++ c ++ " = " ++ c ++ ".clone();")
  .block ("let " ++ b.loaderField ++ " =") (clones ++ [
    .block ("::protoweave::DataLoader::new(move |keys: Vec<" ++ b.keyType ++ ">|") (clones ++ [
      block "async move" [
        bulkRequest b,
        .line (call ++ ".await.map(|response| " ++ results b ++ ")")]]) "\x7d)"]) "\x7d;"

def loaderMember (b : BatchMethod) : Block :=
  .line (b.loaderField ++ ": ::protoweave::DataLoader<" ++ b.keyType ++ ", " ++ b.valueType ++ ">,")

def newClient (s : Service) (fields : List String) : Block :=
  block "Self" (
    fields.map (fun f => .line (f ++ ",")) ++ s.batches.map fun b => .line (b.loaderField ++ ","))

def loaded (b : BatchMethod) : List Block := [
  .blank,
  block (accessorSignature b) [
    .line ("Box::pin(async move \x7b self." ++ b.loaderField ++ ".load(" ++ b.param ++
      ").await.map_err(" ++ status ++ "::from) \x7d)")]]

def clientImpl (s : Service) (body : Method → List Block) : Block :=
  let methods := s.methods.map fun m => block (signature m) (body m)
  block ("impl " ++ s.name ++ " for " ++ s.clientName) (
    methods.intersperse .blank ++ s.batches.flatMap loaded)

def rpcCall (s : Service) (m : Method) : List Block :=
  let target : Line := "self.rpc.as_ref(), " ++ s.constant ++ ", " ++ Piece.literal m.name
  match m.clientStreaming, m.serverStreaming with
  | false, false =>
    [.line ("Box::pin(async move \x7b ::protoweave::rpc::unary(" ++ target ++
      ", &request).await \x7d)")]
  | false, true => [.line ("::protoweave::rpc::server_streaming(" ++ target ++ ", &request)")]
  | true, false => [.line ("::protoweave::rpc::client_streaming(" ++ target ++ ", requests)")]
  | true, true => [.line ("::protoweave::rpc::bidi_streaming(" ++ target ++ ", requests)")]

def rpcClient (s : Service) : List Block := [
  block ("pub struct " ++ s.clientName) (
    .line "rpc: ::std::sync::Arc<dyn ::protoweave::rpc::Rpc>," :: s.batches.map loaderMember),
  .blank,
  block ("impl " ++ s.clientName) [
    block "pub fn new(rpc: ::std::sync::Arc<dyn ::protoweave::rpc::Rpc>) -> Self" (
      s.batches.map (fun b => makeLoader b ["rpc"] (
        "::protoweave::rpc::unary::<_, " ++ s.bulkResponse b ++ ">(rpc.as_ref(), " ++ s.constant ++
          ", " ++ Piece.literal b.method.name ++ ", &request)")) ++
      [newClient s ["rpc"]])],
  .blank,
  clientImpl s (rpcCall s)]

def truth (b : Bool) : String :=
  if b then "true" else "false"

def methodDescriptor (s : Service) (m : Method) : Block :=
  .block ("pub const " ++ s.descriptor m.name ++
      ": ::protoweave::grpc::MethodDescriptor = ::protoweave::grpc::MethodDescriptor") [
    .line ("service: " ++ s.constant ++ ","),
    .line ("method: " ++ Piece.literal m.name ++ ","),
    .line ("client_streaming: " ++ truth m.clientStreaming ++ ","),
    .line ("server_streaming: " ++ truth m.serverStreaming ++ ",")] "\x7d;"

def grpcCall (s : Service) (m : Method) : List Block :=
  let descriptor := s.descriptor m.name
  match m.clientStreaming, m.serverStreaming with
  | false, false =>
    [.line ("Box::pin(async move \x7b ::protoweave::grpc::unary(self.transport.as_ref(), " ++
      descriptor ++ ", &request, self.metadata.clone()).await \x7d)")]
  | false, true => [
    .hang "::protoweave::grpc::server_streaming(" [
      .line "::std::sync::Arc::clone(&self.transport),",
      .line (descriptor ++ ","),
      .line "&request,",
      .line "self.metadata.clone(),",
      .line "self.retry.clone(),"] ")"]
  | true, false =>
    [.line ("::protoweave::grpc::client_streaming(self.transport.as_ref(), " ++ descriptor ++
      ", requests, self.metadata.clone())")]
  | true, true =>
    [.line ("::protoweave::grpc::bidi_streaming(self.transport.as_ref(), " ++ descriptor ++
      ", requests, self.metadata.clone())")]

def grpcClient (s : Service) : List Block :=
  let transport := "transport: ::std::sync::Arc<dyn ::protoweave::grpc::Transport>"
  s.methods.map (methodDescriptor s) ++ [
  .blank,
  block ("pub struct " ++ s.clientName) (
    [.line (transport ++ ","), .line ("metadata: " ++ metadata ++ ","),
      .line "retry: ::protoweave::RetryPolicy,"] ++
    s.batches.map loaderMember),
  .blank,
  block ("impl " ++ s.clientName) [
    block ("pub fn new(" ++ transport ++ ") -> Self") [
      .line ("Self::with_options(transport, " ++ metadata ++
        "::new(), ::protoweave::RetryPolicy::default())")],
    .blank,
    .line "/// `metadata` is sent with every call; `retry` governs server streams.",
    block ("pub fn with_options(" ++ transport ++ ", metadata: " ++ metadata ++
        ", retry: ::protoweave::RetryPolicy) -> Self") (
      s.batches.map (fun b => makeLoader b ["transport", "metadata"] (
        "::protoweave::grpc::unary::<_, " ++ s.bulkResponse b ++ ">(transport.as_ref(), " ++
          s.descriptor b.method.name ++ ", &request, metadata)")) ++
      [newClient s ["transport", "metadata", "retry"]])],
  .blank,
  clientImpl s (grpcCall s)]

def serviceItems (options : Options) (s : Service) : List Block :=
  [.line ("pub const " ++ s.constant ++ ": &str = " ++ Piece.literal s.fullName ++ ";"),
    .blank,
    serviceTrait s] ++
  match options.client with
  | .none => []
  | .rpc => .blank :: rpcClient s
  | .grpc => .blank :: grpcClient s

end Protogen.Code
