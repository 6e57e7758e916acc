import OpenShell.Sandbox.Bodies
import OpenShell.Sandbox.EndpointConfig

namespace OpenShell.Sandbox

open Text Streams

/-! The REST relay: it parses a request, asks the policy, passes the request on or refuses it, relays the
response, and starts over. The relay is followed through a log of the requests it has handled. -/

structure L7EvalContext where
  host : String
  port : UInt16
  policyName : String
  binaryPath : String
  ancestors : List String := []
  cmdlinePaths : List String := []
  secretResolver : Option SecretResolver := none

def L7EvalContext.input (ctx : L7EvalContext) : NetworkInput :=
  { host := ctx.host, port := ctx.port, binaryPath := ctx.binaryPath, ancestors := ctx.ancestors,
    cmdlinePaths := ctx.cmdlinePaths }

structure L7RequestInfo where
  action : List Char
  target : List Char
  queryParams : AList (fun _ : String => List String)

def L7RequestInfo.data (info : L7RequestInfo) : OpaEngine.RequestData :=
  { method := String.ofList info.action, path := String.ofList info.target, queryParams := info.queryParams }

def evaluateL7Request (engine : OpaEngine) (ctx : L7EvalContext) (request : L7RequestInfo) : Bool × String :=
  if engine.allowRequest request.data ctx.input then (true, "")
  else (false, OpaEngine.requestDenyReason request.data)

structure RelayedRequest where
  outcome : Except String RelayOutcome
  client : ByteStream
  upstream : ByteStream
  sent : List UInt8
  returned : List UInt8

def requestHeader (request : L7Request) : List UInt8 :=
  request.rawHeader.take ((headerEnd request.rawHeader).getD request.rawHeader.length)

def requestOverflow (request : L7Request) : List UInt8 :=
  request.rawHeader.drop ((headerEnd request.rawHeader).getD request.rawHeader.length)

def acceptedOutcome (request : L7Request) (outcome : RelayOutcome) : RelayOutcome :=
  match outcome with
  | .upgraded overflow =>
    if clientRequestedUpgrade (utf8DecodeLossy (requestHeader request)) then .upgraded overflow else .consumed
  | outcome => outcome

def relayHttpRequestWithResolver (base64 : Base64) (request : L7Request) (client upstream : ByteStream)
    (resolver : Option SecretResolver) : RelayedRequest :=
  match rewriteHttpHeaderBlock base64 (requestHeader request) resolver with
  | .error error => ⟨.error ("credential injection failed: " ++ error.text), client, upstream, [], []⟩
  | .ok rewrite =>
    let body := relayBody request.bodyLength (requestOverflow request) client
    let sent := rewrite.rewritten ++ requestOverflow request ++ body.forwarded
    match body.result with
    | .error error => ⟨.error error, body.reader, upstream, sent, []⟩
    | .ok () =>
      let response := relayResponse request.action upstream
      ⟨response.outcome.map (acceptedOutcome request), body.reader, response.upstream, sent, response.forwarded⟩

/-- The refusal sent to the client: `403 Forbidden` with these fields in its body. -/
structure DenyResponse where
  policy : String
  rule : List Char
  detail : String

inductive Verdict where
  | unresolved (error : UnresolvedPlaceholderError)
  | denied (response : DenyResponse)
  | relayed (allowed : Bool) (result : RelayedRequest)

/-- One request, with the client's stream before it and behind its header block. -/
structure Exchange where
  client : ByteStream
  request : L7Request
  behind : ByteStream
  verdict : Verdict

/-- How the loop goes on after a request: with the streams as they are left, or not at all. What the client
    sends after an accepted switch of protocols passes unread. -/
inductive Continuation where
  | again (client upstream : ByteStream)
  | stop (result : Except String Unit) (raw : List UInt8)

namespace Exchange

def sent (exchange : Exchange) : List UInt8 :=
  match exchange.verdict with
  | .relayed _ result => result.sent
  | _ => []

def rest (exchange : Exchange) : ByteStream :=
  match exchange.verdict with
  | .relayed _ result => result.client
  | _ => exchange.behind

def continuation (exchange : Exchange) : Continuation :=
  match exchange.verdict with
  | .unresolved _ => .stop (.ok ()) []
  | .denied _ => .stop (.ok ()) []
  | .relayed _ result =>
    match result.outcome with
    | .error error => .stop (.error error) []
    | .ok .reusable => .again result.client result.upstream
    | .ok .consumed => .stop (.ok ()) []
    | .ok (.upgraded _) => .stop (.ok ()) result.client.bytes

end Exchange

/-- What a run of the relay did: the requests it handled, and what passed through it unread after them. -/
structure RestRun where
  exchanges : List Exchange
  raw : List UInt8
  result : Except String Unit

def RestRun.sent (run : RestRun) : List UInt8 := run.exchanges.flatMap Exchange.sent ++ run.raw

structure Inspection where
  base64 : Base64
  engine : OpaEngine
  config : L7EndpointConfig
  ctx : L7EvalContext

namespace Inspection

variable (relay : Inspection)

def redactedTarget (request : L7Request) : Except UnresolvedPlaceholderError (List Char) :=
  match relay.ctx.secretResolver with
  | some resolver => (rewriteTargetForEval resolver request.target).map (·.redacted)
  | none => .ok request.target

def evaluate (request : L7Request) (target : List Char) : Bool × String :=
  evaluateL7Request relay.engine relay.ctx ⟨request.action, target, request.queryParams⟩

def handle (request : L7Request) (client upstream : ByteStream) : Verdict :=
  match relay.redactedTarget request with
  | .error error => .unresolved error
  | .ok target =>
    let (allowed, reason) := relay.evaluate request target
    if allowed || relay.config.enforcement = .audit then
      .relayed allowed
        (relayHttpRequestWithResolver relay.base64 request client upstream relay.ctx.secretResolver)
    else .denied ⟨relay.ctx.policyName, request.action ++ ' ' :: target, reason⟩

def relayRestFor : Nat → ByteStream → ByteStream → RestRun
  | 0, _, _ => ⟨[], [], .ok ()⟩
  | fuel + 1, client, upstream =>
    match parseHttpRequest client with
    | (.ok (some request), behind) =>
      let exchange : Exchange := ⟨client, request, behind, relay.handle request behind upstream⟩
      match exchange.continuation with
      | .again client upstream =>
        let run := relayRestFor fuel client upstream
        { run with exchanges := exchange :: run.exchanges }
      | .stop result raw => ⟨[exchange], raw, result⟩
    | (.ok none, _) => ⟨[], [], .ok ()⟩
    | (.error _, _) => ⟨[], [], .ok ()⟩

def relayRest (client upstream : ByteStream) : RestRun :=
  relay.relayRestFor (client.bytes.length + 1) client upstream

end Inspection

end OpenShell.Sandbox
