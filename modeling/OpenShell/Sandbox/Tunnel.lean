import OpenShell.Sandbox.Smuggling

namespace OpenShell.Sandbox

open Text Streams

/-! What becomes of the client's bytes after a CONNECT was allowed and the upstream is connected. -/

/-- The two handshakes, which the TLS library makes: each gives the stream of decrypted bytes. -/
structure TlsState where
  terminateClient : ByteStream → String → Except String ByteStream
  connectUpstream : ByteStream → String → Except String ByteStream

def looksLikeTls (peek : List UInt8) : Bool :=
  match peek with
  | contentType :: major :: minor :: _ => contentType = 0x16 && major = 0x03 && minor ≤ 0x04
  | _ => false

/-- How the client's bytes travel: not at all, copied as they come, or through a relay that reads them as
    requests. `secured` says that both ends are behind TLS. -/
inductive Carried where
  | nothing
  | failed (error : String)
  | raw (secured : Bool) (bytes : List UInt8)
  | inspected (secured : Bool) (client upstream : ByteStream) (run : RestRun)
  | passthrough (secured : Bool) (client : ByteStream) (run : RestRun)

structure Tunnel where
  base64 : Base64
  engine : OpaEngine
  input : NetworkInput
  secretResolver : Option SecretResolver := none
  tlsState : Option TlsState := none

namespace Tunnel

variable (tunnel : Tunnel)

def decision : ConnectDecision := decideConnect tunnel.engine tunnel.input

def l7Config : Option L7EndpointConfig :=
  queryL7Config tunnel.engine tunnel.decision tunnel.input.host tunnel.input.port

def tlsMode : TlsMode := queryTlsMode tunnel.engine tunnel.decision tunnel.input.host tunnel.input.port

def matchedPolicy : Option String :=
  match tunnel.decision.action with
  | .allow matchedPolicy => matchedPolicy
  | .deny _ => none

def ctx : L7EvalContext where
  host := tunnel.input.host
  port := tunnel.input.port
  policyName := tunnel.matchedPolicy.getD ""
  binaryPath := tunnel.decision.binary.getD ""
  ancestors := tunnel.decision.ancestors
  cmdlinePaths := tunnel.decision.cmdlinePaths
  secretResolver := tunnel.secretResolver

def inspection (config : L7EndpointConfig) : Inspection := ⟨tunnel.base64, tunnel.engine, config, tunnel.ctx⟩

end Tunnel

def relayWithInspection (relay : Inspection) (secured : Bool) (client upstream : ByteStream) : Carried :=
  match relay.config.protocol with
  | .rest => .inspected secured client upstream (relay.relayRest client upstream)
  | .sql => .raw secured client.bytes

/-! Without a configuration for inspection, requests are read only to put credentials into them. -/

def isBenignConnectionError (error : String) : Bool :=
  ["close_notify", "tls handshake eof", "connection reset", "broken pipe", "unexpected eof",
    "client disconnected mid-request"].any fun pattern =>
      contains (toAsciiLowercase error.toList) pattern.toList

def passRequest (base64 : Base64) (resolver : Option SecretResolver) (request : L7Request)
    (client upstream : ByteStream) : Verdict :=
  match resolver.map (rewriteTargetForEval · request.target) with
  | some (.error error) => .unresolved error
  | _ => .relayed true (relayHttpRequestWithResolver base64 request client upstream resolver)

def relayPassthroughFor (base64 : Base64) (resolver : Option SecretResolver) :
    Nat → ByteStream → ByteStream → RestRun
  | 0, _, _ => ⟨[], [], .ok ()⟩
  | fuel + 1, client, upstream =>
    match parseHttpRequest client with
    | (.ok (some request), behind) =>
      let exchange : Exchange := ⟨client, request, behind, passRequest base64 resolver request behind upstream⟩
      match exchange.continuation with
      | .again client upstream =>
        let run := relayPassthroughFor base64 resolver fuel client upstream
        { run with exchanges := exchange :: run.exchanges }
      | .stop result raw => ⟨[exchange], raw, result⟩
    | (.ok none, _) => ⟨[], [], .ok ()⟩
    | (.error error, _) => ⟨[], [], if isBenignConnectionError error then .ok () else .error error⟩

def relayPassthroughWithCredentials (base64 : Base64) (client upstream : ByteStream) (ctx : L7EvalContext) : RestRun :=
  relayPassthroughFor base64 ctx.secretResolver (client.bytes.length + 1) client upstream

/-- The first bytes, of which `arrived` have come when they are looked at; a peek waits for one. -/
def peekBytes (client : ByteStream) (arrived : Nat) : List UInt8 := (client.bytes.take (max 1 arrived)).take 8

namespace Tunnel

variable (tunnel : Tunnel)

def relay (secured : Bool) (client upstream : ByteStream) : Carried :=
  match tunnel.l7Config with
  | some config => relayWithInspection (tunnel.inspection config) secured client upstream
  | none =>
    .passthrough secured client (relayPassthroughWithCredentials tunnel.base64 client upstream tunnel.ctx)

def relaySecured (tls : TlsState) (client upstream : ByteStream) : Carried :=
  match tls.terminateClient client tunnel.input.host with
  | .error error => .failed error
  | .ok tlsClient =>
    match tls.connectUpstream upstream tunnel.input.host with
    | .error error => .failed error
    | .ok tlsUpstream => tunnel.relay true tlsClient tlsUpstream

/-- The end of `handle_tcp_connection`. -/
def run (client upstream : ByteStream) (arrived : Nat) : Carried :=
  if tunnel.tlsMode = .skip then .raw false client.bytes
  else
    let peek := peekBytes client arrived
    if peek.isEmpty then
      match client.ending with
      | none => .nothing
      | some error => .failed error.text
    else if looksLikeTls peek then
      match tunnel.tlsState with
      | some tls => tunnel.relaySecured tls client upstream
      | none => .raw false client.bytes
    else if looksLikeHttp peek then tunnel.relay false client upstream
    else .raw false client.bytes

end Tunnel

/-! What an inspected tunnel lets through. -/

/-- What the response to a request leaves of the upstream's stream. -/
def Exchange.left (exchange : Exchange) (upstream : ByteStream) : ByteStream :=
  match exchange.verdict with
  | .relayed _ result => result.upstream
  | .unresolved _ | .denied _ => upstream

theorem Exchange.left_of_again {exchange : Exchange} {upstream next left : ByteStream}
    (again : exchange.continuation = .again next left) : exchange.left upstream = left := by
  unfold Exchange.continuation at again
  unfold Exchange.left
  split at again
  · cases again
  · cases again
  · rename_i relayed
    split at again
    · cases again
    · cases again
      rw [relayed]
    · cases again
    · cases again

namespace Inspection

variable (relay : Inspection)

/-- What is sent upstream for a request: nothing, or the header block of an allowed request and the bytes
    relayed as its body, which for a body of known length are that body. -/
def Conveys (exchange : Exchange) (piece : List UInt8) : Prop :=
  match relay.forwardedHeader exchange.request with
  | none => piece = []
  | some header =>
    ∃ body, piece = header ++ body ∧ body <+: exchange.behind.bytes ∧
      (exchange.request.bodyLength ≠ .chunked →
        OwnBody exchange.request.bodyLength exchange.behind.bytes body)

/-- The request was allowed and asks to switch protocols, and what the upstream answers to it is a 101. -/
structure Upgrades (upstream : ByteStream) (exchange : Exchange) : Prop where
  allowed : (relay.forwardedHeader exchange.request).isSome
  asked : clientRequestedUpgrade (utf8DecodeLossy exchange.request.rawHeader) = true
  answered : ∃ buf headerEnd rest, readResponseHead upstream = (.ok (.complete buf headerEnd), rest) ∧
    parseStatusCode (utf8DecodeLossy (buf.take headerEnd)) = some 101

/-- Each request is handled with the upstream as the responses to those before it have left it. -/
def Answered : ByteStream → List Exchange → Prop
  | _, [] => True
  | upstream, exchange :: later =>
    exchange.verdict = relay.handle exchange.request exchange.behind upstream ∧ Answered (exchange.left upstream) later

/-- What the responses to these requests leave of the upstream's stream. -/
def leftBy (exchanges : List Exchange) (upstream : ByteStream) : ByteStream :=
  exchanges.foldl (fun left exchange => exchange.left left) upstream

structure Mediates (client upstream : ByteStream) (run : RestRun) : Prop where
  chained : Chained client run.exchanges
  answered : relay.Answered upstream run.exchanges
  sent : ∃ pieces, List.Forall₂ relay.Conveys run.exchanges pieces ∧ run.sent = pieces.flatten ++ run.raw
  raw : run.raw ≠ [] → ∃ before exchange, run.exchanges = before ++ [exchange] ∧
    relay.Upgrades (leftBy before upstream) exchange

variable {relay : Inspection} {exchange : Exchange} {client upstream : ByteStream}

theorem Handled.conveys (handled : relay.Handled exchange) (enforced : relay.config.enforcement = .enforce) :
    relay.Conveys exchange exchange.sent := by
  unfold Conveys
  split
  · rename_i withholds
    exact handled.withheld enforced withholds
  · rename_i header forwards
    refine ⟨_, (handled.forwarded forwards).1, ⟨_, (relayBody_bytes _ _ _).symm⟩, fun not_chunked => ?_⟩
    exact relayBody_own fun chunked => absurd chunked not_chunked

theorem map_const_ne_upgraded {result : Except String Unit} {outcome : RelayOutcome} {overflow : List UInt8}
    (other : outcome ≠ .upgraded overflow) : (result.map fun _ => outcome) ≠ .ok (.upgraded overflow) := by
  cases result with
  | error error =>
    intro same
    cases same
  | ok value =>
    intro same
    cases same
    exact other rfl

theorem status_of_upgraded {method : List Char} {buf overflow : List UInt8} {headerEnd : Nat}
    (upgraded : (relayFramedResponse method buf headerEnd upstream).outcome = .ok (.upgraded overflow)) :
    parseStatusCode (utf8DecodeLossy (buf.take headerEnd)) = some 101 := by
  unfold relayFramedResponse at upgraded
  simp only at upgraded
  split at upgraded
  · cases upgraded
  · split at upgraded
    · rename_i switching
      cases status : parseStatusCode (utf8DecodeLossy (buf.take headerEnd)) with
      | none =>
        rw [status] at switching
        cases switching
      | some code =>
        rw [status] at switching
        exact congrArg some switching
    · split at upgraded
      · unfold connectionOutcome at upgraded
        split at upgraded <;> cases upgraded
      · split at upgraded
        · split at upgraded
          · exact absurd upgraded (map_const_ne_upgraded RelayOutcome.noConfusion)
          · cases upgraded
        · exact absurd upgraded (map_const_ne_upgraded RelayOutcome.noConfusion)

theorem answered_of_upgraded {method : List Char} {overflow : List UInt8}
    (upgraded : (relayResponse method upstream).outcome = .ok (.upgraded overflow)) :
    ∃ buf headerEnd rest, readResponseHead upstream = (.ok (.complete buf headerEnd), rest) ∧
      parseStatusCode (utf8DecodeLossy (buf.take headerEnd)) = some 101 := by
  unfold relayResponse at upgraded
  split at upgraded
  · cases upgraded
  · cases upgraded
  · rename_i buf headerEnd rest head
    exact ⟨buf, headerEnd, rest, head, status_of_upgraded upgraded⟩

theorem asked_of_accepted {request : L7Request} {result : Except String RelayOutcome} {overflow : List UInt8}
    (accepted : result.map (acceptedOutcome request) = .ok (.upgraded overflow)) :
    clientRequestedUpgrade (utf8DecodeLossy (requestHeader request)) = true ∧ result = .ok (.upgraded overflow) := by
  cases result with
  | error error => cases accepted
  | ok outcome =>
    have same : acceptedOutcome request outcome = .upgraded overflow := Except.ok.inj accepted
    unfold acceptedOutcome at same
    split at same
    · split at same
      · rename_i asked
        exact ⟨asked, congrArg Except.ok same⟩
      · cases same
    · rename_i other
      exact absurd same (other overflow)

theorem Handled.upgrades (handled : relay.Handled exchange) (enforced : relay.config.enforcement = .enforce)
    (verdict : exchange.verdict = relay.handle exchange.request exchange.behind upstream)
    {allowed : Bool} {result : RelayedRequest} {overflow : List UInt8}
    (relayed : exchange.verdict = .relayed allowed result)
    (upgraded : result.outcome = .ok (.upgraded overflow)) : relay.Upgrades upstream exchange := by
  obtain ⟨whole, _⟩ := requestHeader_of_parsed handled.parsed
  have is_result := handle_relayed (verdict.symm.trans relayed)
  have allows : relay.allows exchange.request = true := by
    by_contra refused
    rw [Bool.not_eq_true] at refused
    exact handle_refused enforced refused _ _ (verdict.symm.trans relayed)
  rw [is_result] at upgraded
  unfold relayHttpRequestWithResolver at upgraded
  simp only at upgraded
  split at upgraded
  · cases upgraded
  · rename_i rewrite rewritten
    split at upgraded
    · cases upgraded
    · obtain ⟨asked, switched⟩ := asked_of_accepted upgraded
      refine ⟨?_, whole ▸ asked, answered_of_upgraded switched⟩
      rw [forwardedHeader, if_pos allows, rewritten]
      rfl

theorem Handled.upgrades_of_raw (handled : relay.Handled exchange)
    (enforced : relay.config.enforcement = .enforce)
    (verdict : exchange.verdict = relay.handle exchange.request exchange.behind upstream)
    {result : Except String Unit} {raw : List UInt8} (stops : exchange.continuation = .stop result raw)
    (passed : raw ≠ []) : relay.Upgrades upstream exchange := by
  have switched : exchange.switched = true := by
    by_contra stays
    rw [Bool.not_eq_true] at stays
    exact passed (raw_of_stop stops stays)
  unfold Exchange.switched at switched
  split at switched
  · rename_i relayed
    split at switched
    · rename_i upgraded
      exact handled.upgrades enforced verdict relayed upgraded
    · cases switched
  · cases switched

theorem Runs.upgrades {run : RestRun} (runs : relay.Runs client upstream run)
    (enforced : relay.config.enforcement = .enforce) (passed : run.raw ≠ []) :
    ∃ before exchange, run.exchanges = before ++ [exchange] ∧ relay.Upgrades (leftBy before upstream) exchange := by
  induction runs with
  | idle => exact absurd rfl passed
  | last handled answered stops => exact ⟨[], _, rfl, handled.upgrades_of_raw enforced answered stops passed⟩
  | more handled answered again later ih =>
    obtain ⟨before, last, is_last, upgrades⟩ := ih passed
    refine ⟨_ :: before, last, congrArg _ is_last, ?_⟩
    rw [leftBy, List.foldl_cons, Exchange.left_of_again again]
    exact upgrades

theorem Runs.answered {run : RestRun} (runs : relay.Runs client upstream run) :
    relay.Answered upstream run.exchanges := by
  induction runs with
  | idle => trivial
  | last handled answered stops => exact ⟨answered, trivial⟩
  | more handled answered again later ih => exact ⟨answered, Exchange.left_of_again again ▸ ih⟩

theorem Runs.mediates {run : RestRun} (runs : relay.Runs client upstream run)
    (enforced : relay.config.enforcement = .enforce) : relay.Mediates client upstream run where
  chained := runs.chained
  answered := runs.answered
  sent := by
    refine ⟨run.exchanges.map Exchange.sent, forall₂_sent fun exchange member => ?_, ?_⟩
    · exact (runs.handled exchange member).conveys enforced
    · rw [RestRun.sent, List.flatMap]
  raw := runs.upgrades enforced

end Inspection

namespace Tunnel

variable (tunnel : Tunnel)

def Recognised (peek : List UInt8) : Prop :=
  (looksLikeTls peek = true ∧ tunnel.tlsState.isSome) ∨ looksLikeHttp peek = true

def Mediated : Carried → Prop
  | .nothing => True
  | .failed _ => True
  | .raw _ bytes => bytes = []
  | .inspected _ client upstream run =>
    ∃ config, tunnel.l7Config = some config ∧ (tunnel.inspection config).Mediates client upstream run
  | .passthrough _ _ run => run.sent = []

variable {tunnel : Tunnel} {client upstream : ByteStream}

theorem relay_mediated (inspected : Inspected tunnel.engine tunnel.input) (secured : Bool) :
    tunnel.Mediated (tunnel.relay secured client upstream) := by
  obtain ⟨⟨config, is_config, rest, enforced⟩, _⟩ := inspected
  have configured : tunnel.l7Config = some config := is_config
  simp only [relay, configured, relayWithInspection, inspection, rest]
  exact ⟨config, configured, (Inspection.runs_relayRestFor _ client upstream).mediates enforced⟩

theorem relaySecured_mediated (inspected : Inspected tunnel.engine tunnel.input) (tls : TlsState) :
    tunnel.Mediated (tunnel.relaySecured tls client upstream) := by
  unfold relaySecured
  split
  · trivial
  · split
    · trivial
    · exact relay_mediated inspected true

theorem content_type_of_tls {first : UInt8} {peek : List UInt8} (tls : looksLikeTls (first :: peek) = true) :
    first = 0x16 := by
  unfold looksLikeTls at tls
  split at tls
  · rename_i same
    cases same
    simp only [Bool.and_eq_true, decide_eq_true_eq] at tls
    exact tls.1.1
  · cases tls

theorem not_tls_of_http {peek : List UInt8} (http : looksLikeHttp peek = true) : looksLikeTls peek = false := by
  have methods : ∀ method ∈ httpMethods, (utf8Encode method.toList).head? ≠ some 0x16 ∧
      utf8Encode method.toList ≠ [] := by decide
  by_contra tls
  rw [Bool.not_eq_false] at tls
  obtain ⟨method, member, starts⟩ := List.any_eq_true.mp http
  obtain ⟨other, filled⟩ := methods method member
  have lead := List.isPrefixOf_iff_prefix.mp starts
  cases text : utf8Encode method.toList with
  | nil => exact filled text
  | cons first more =>
    rw [text] at lead other
    cases peek with
    | nil => exact absurd (List.prefix_nil.mp lead) (List.cons_ne_nil _ _)
    | cons contentType bytes =>
      rw [content_type_of_tls tls] at lead
      exact other (congrArg some (List.cons_prefix_cons.mp lead).1)

theorem run_of_peek {arrived : Nat} (inspected : Inspected tunnel.engine tunnel.input)
    (filled : peekBytes client arrived ≠ []) : tunnel.run client upstream arrived =
      if looksLikeTls (peekBytes client arrived) then
        match tunnel.tlsState with
        | some tls => tunnel.relaySecured tls client upstream
        | none => .raw false client.bytes
      else if looksLikeHttp (peekBytes client arrived) then tunnel.relay false client upstream
      else .raw false client.bytes := by
  have terminates : tunnel.tlsMode ≠ .skip := inspected.2
  have not_empty : (peekBytes client arrived).isEmpty = false := List.isEmpty_eq_false_iff.mpr filled
  simp only [run, if_neg terminates, not_empty, Bool.false_eq_true, if_false]

/-- A tunnel for an inspected endpoint whose first bytes are recognised goes through the relay. One whose first
    bytes show TLS that cannot be terminated, or neither protocol in a full peek, is copied as it comes. -/
theorem run_mediated (tunnel : Tunnel) (client upstream : ByteStream) (arrived : Nat)
    (inspected : Inspected tunnel.engine tunnel.input) :
    (tunnel.Recognised (peekBytes client arrived) → tunnel.Mediated (tunnel.run client upstream arrived)) ∧
    (¬ tunnel.Recognised (peekBytes client arrived) →
      (looksLikeTls (peekBytes client arrived) = true ∨ (peekBytes client arrived).length = 8) →
      tunnel.run client upstream arrived = .raw false client.bytes) := by
  refine ⟨fun recognised => ?_, fun unknown full => ?_⟩
  · have filled : peekBytes client arrived ≠ [] := by
      intro empty
      rw [Recognised, empty] at recognised
      rcases recognised with ⟨tls, _⟩ | http
      · cases tls
      · revert http
        decide +kernel
    rw [run_of_peek inspected filled]
    rcases recognised with ⟨is_tls, configured⟩ | http
    · obtain ⟨tls, is_state⟩ := Option.isSome_iff_exists.mp configured
      rw [if_pos is_tls, is_state]
      exact relaySecured_mediated inspected tls
    · rw [not_tls_of_http http, if_neg Bool.false_ne_true, if_pos http]
      exact relay_mediated inspected false
  · have filled : peekBytes client arrived ≠ [] := by
      intro empty
      rw [empty] at full
      rcases full with tls | length
      · cases tls
      · cases length
    rw [run_of_peek inspected filled]
    by_cases is_tls : looksLikeTls (peekBytes client arrived) = true
    · rw [if_pos is_tls]
      cases state : tunnel.tlsState with
      | none => rfl
      | some tls => exact absurd (.inl ⟨is_tls, by rw [state]; rfl⟩) unknown
    · rw [if_neg is_tls]
      by_cases http : looksLikeHttp (peekBytes client arrived) = true
      · exact absurd (.inr http) unknown
      · rw [if_neg http]

end Tunnel

/-! A client that speaks neither protocol to an inspected endpoint. -/

def postTunnel : Tunnel where
  base64 := postOnly.base64
  engine := postOnly.engine
  input := { host := "api.example", port := 443, binaryPath := "/usr/bin/curl" }

theorem postTunnel_inspected : Inspected postTunnel.engine postTunnel.input :=
  ⟨⟨⟨.rest, .auto, .enforce⟩, by decide +kernel, rfl, rfl⟩, by decide +kernel⟩

def sshClient : ByteStream where
  segments := [utf8Encode "SSH-2.0-client\r\n".toList]
  nonempty := by decide +kernel
  bounded := by decide +kernel

theorem sshClient_unmediated : ¬ (Inspected postTunnel.engine postTunnel.input →
    postTunnel.Mediated (postTunnel.run sshClient noContent 8)) := by
  intro mediated
  have copied := mediated postTunnel_inspected
  rw [Tunnel.run_of_peek postTunnel_inspected (by decide +kernel), if_neg (by decide +kernel),
    if_neg (by decide +kernel)] at copied
  have all : sshClient.bytes = [] := copied
  exact absurd all (by decide +kernel)

theorem pipeliner_mediated : postTunnel.Recognised (peekBytes pipeliner 5) ∧
    postTunnel.Mediated (postTunnel.run pipeliner noContent 5) := by
  have recognised : postTunnel.Recognised (peekBytes pipeliner 5) := .inr (by decide +kernel)
  exact ⟨recognised, (Tunnel.run_mediated postTunnel pipeliner noContent 5 postTunnel_inspected).1 recognised⟩

end OpenShell.Sandbox
