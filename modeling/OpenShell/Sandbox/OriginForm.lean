import OpenShell.Sandbox.Destinations
import OpenShell.Sandbox.Tunnel

namespace OpenShell.Sandbox

open Text Net Streams

/-! One request on both ways through the proxy: forwarded, and inside a tunnel. -/

/-- The header block of a request with no fields. -/
def originRequest (method target : List Char) : List Char :=
  (method ++ ' ' :: (target ++ ' ' :: "HTTP/1.1".toList)) ++ (crlfText ++ crlfText)

section Parsing

variable {method target : List Char}

theorem isWord_version : IsWord "HTTP/1.1".toList := ⟨by decide, plain_of_all (by decide)⟩

theorem notMem_requestLine {c : Char} (white : isWhitespace c = true) (other : c ≠ ' ') (isMethod : IsWord method)
    (isTarget : IsWord target) : c ∉ method ++ ' ' :: (target ++ ' ' :: "HTTP/1.1".toList) := by
  have outside : ∀ {word : List Char}, IsWord word → c ∉ word := by
    intro word isWord member
    rw [isWord.2 c member] at white
    cases white
  rw [List.mem_append, List.mem_cons, List.mem_append, List.mem_cons]
  rintro (inMethod | space | inTarget | space | inVersion)
  · exact outside isMethod inMethod
  · exact other space
  · exact outside isTarget inTarget
  · exact other space
  · exact outside isWord_version inVersion

theorem utf8Encode_originRequest : utf8Encode (originRequest method target) =
    utf8Encode (method ++ ' ' :: (target ++ ' ' :: "HTTP/1.1".toList)) ++ (crlf ++ crlf) := by
  unfold originRequest
  rw [utf8Encode_append, utf8Encode_append crlfText, utf8Encode_crlfText]

theorem headerEnd_originRequest (isMethod : IsWord method) (isTarget : IsWord target) :
    headerEnd (utf8Encode (originRequest method target)) = some (utf8Encode (originRequest method target)).length := by
  have absent := notMem_requestLine (show isWhitespace '\r' = true by decide) (by decide) isMethod isTarget
  rw [← (sameAscii_encode _).mem_iff (by decide)] at absent
  have found := @position_of_notMem _ _ _ [0x0A, 0x0D, 0x0A] _ absent []
  rw [List.append_nil] at found
  rw [utf8Encode_originRequest, headerEnd, List.length_append]
  exact congrArg (Option.map (· + 4)) found

theorem hasBareLf_append {bytes : List UInt8} (absent : 0x0A ∉ bytes) (previous : Option UInt8) (after : List UInt8) :
    hasBareLf previous (bytes ++ 0x0D :: after) = hasBareLf (some 0x0D) after := by
  induction bytes generalizing previous with
  | nil => simp [hasBareLf]
  | cons byte bytes ih =>
    rw [List.mem_cons, not_or] at absent
    rw [List.cons_append, hasBareLf, ih absent.2]
    simp [Ne.symm absent.1]

theorem hasBareLf_originRequest (isMethod : IsWord method) (isTarget : IsWord target) :
    hasBareLf none (utf8Encode (originRequest method target)) = false := by
  have absent := notMem_requestLine (show isWhitespace '\n' = true by decide) (by decide) isMethod isTarget
  rw [← (sameAscii_encode _).mem_iff (by decide)] at absent
  rw [utf8Encode_originRequest]
  exact hasBareLf_append absent none _

theorem lines_originRequest (isMethod : IsWord method) (isTarget : IsWord target) :
    lines (originRequest method target) = [method ++ ' ' :: (target ++ ' ' :: "HTTP/1.1".toList), []] := by
  have absent := notMem_requestLine (show isWhitespace '\n' = true by decide) (by decide) isMethod isTarget
  exact lines_append absent crlfText

theorem parseHeaderBlock_originRequest (isMethod : IsWord method) (isTarget : IsWord target) :
    parseHeaderBlock (utf8Encode (originRequest method target)) =
      (parseTargetQuery target).map fun parsed =>
        { action := method, target := parsed.1, queryParams := parsed.2,
          rawHeader := utf8Encode (originRequest method target), bodyLength := .none } := by
  have requestLine : parseRequestLine (method ++ ' ' :: (target ++ ' ' :: "HTTP/1.1".toList)) = .ok (method, target) := by
    unfold parseRequestLine
    rw [splitWhitespace_append isMethod, splitWhitespace_append isTarget, splitWhitespace_word isWord_version]
    simp
  have noBody : parseBodyLength (originRequest method target) = .ok .none := by
    unfold parseBodyLength headerFields
    rw [lines_originRequest isMethod isTarget]
    rfl
  unfold parseHeaderBlock
  simp only [headerEnd_originRequest isMethod isTarget, Option.getD_some, List.take_length,
    hasBareLf_originRequest isMethod isTarget, utf8Decode_encode, lines_originRequest isMethod isTarget,
    List.head?_cons, requestLine, noBody, Bool.false_eq_true, if_false, bind, Except.bind, pure, Except.pure]
  cases parseTargetQuery target <;> rfl

end Parsing

/-- The first request that the relay reads is passed on. -/
def Inspection.Permits (relay : Inspection) (client upstream : ByteStream) : Prop :=
  ∃ exchange ∈ (relay.relayRest client upstream).exchanges.head?, ∃ allowed result,
    exchange.verdict = .relayed allowed result

namespace Inspection

variable {relay : Inspection} {client upstream : ByteStream}

theorem permits_iff : relay.Permits client upstream ↔
    ∃ request behind allowed result, parseHttpRequest client = (.ok (some request), behind) ∧
      relay.handle request behind upstream = .relayed allowed result := by
  unfold Permits relayRest relayRestFor
  split
  · rename_i request behind parsed
    simp only [parsed, Prod.mk.injEq, Except.ok.injEq, Option.some.injEq]
    constructor
    · rintro ⟨exchange, first, allowed, result, relayed⟩
      split at first <;> cases first <;> exact ⟨request, behind, allowed, result, ⟨rfl, rfl⟩, relayed⟩
    · rintro ⟨_, _, allowed, result, ⟨rfl, rfl⟩, relayed⟩
      split <;> exact ⟨_, rfl, allowed, result, relayed⟩
  · rename_i closed
    simp [closed]
  · rename_i failed
    simp [failed]

end Inspection

namespace Proxy

variable {proxy : Proxy} {destination : Destination} {matchedPolicy : Option String} {config : L7EndpointConfig}
  {method target : List Char}

/-- The tunnel to the same destination for the same peer. -/
def tunnel (proxy : Proxy) (destination : Destination) : Tunnel where
  base64 := proxy.base64
  engine := proxy.engine
  input := proxy.input destination
  secretResolver := proxy.secretResolver

/-- What the forward path asks the policy about, in the mode of the endpoint. -/
def Refuses (proxy : Proxy) (destination : Destination) (config : L7EndpointConfig) (info : L7RequestInfo) : Prop :=
  config.enforcement = .enforce ∧ proxy.engine.allowRequest info.data (proxy.input destination) = false

theorem decision_eq (allowed : (proxy.decision destination.host destination.port).action = .allow matchedPolicy) :
    proxy.decision destination.host destination.port = (proxy.tunnel destination).decision := by
  unfold Tunnel.decision tunnel input decision evaluateOpaTcp at *
  cases known : proxy.identity with
  | error error =>
    rw [known] at allowed
    cases allowed
  | ok peer => rfl

theorem evaluateForward_eq_none
    (allowed : (proxy.decision destination.host destination.port).action = .allow matchedPolicy)
    (configured : (proxy.tunnel destination).l7Config = some config) :
    proxy.evaluateForward (proxy.decision destination.host destination.port) matchedPolicy method destination.host
        destination.port target = none ↔ ¬ proxy.Refuses destination config (forwardRequestInfo method target) := by
  have same : queryL7Config proxy.engine (proxy.decision destination.host destination.port)
      (String.ofList (toAsciiLowercase destination.host)) destination.port = some config := by
    rw [decision_eq allowed]
    exact configured
  have asked : (proxy.forwardCtx (proxy.decision destination.host destination.port) matchedPolicy destination.host
      destination.port).input = proxy.input destination := rfl
  unfold evaluateForward evaluateL7Request Refuses
  rw [same, asked]
  cases proxy.engine.allowRequest (forwardRequestInfo method target).data (proxy.input destination) <;>
    cases mode : config.enforcement <;> simp [mode]

theorem handle_relayed_iff (plain : proxy.secretResolver = none) (request : L7Request) {behind upstream : ByteStream} :
    (∃ allowed result, ((proxy.tunnel destination).inspection config).handle request behind upstream =
        .relayed allowed result) ↔
      ¬ proxy.Refuses destination config ⟨request.action, request.target, request.queryParams⟩ := by
  have resolver : ((proxy.tunnel destination).inspection config).ctx.secretResolver = none := plain
  have mode : ((proxy.tunnel destination).inspection config).config = config := rfl
  have asked : ((proxy.tunnel destination).inspection config).ctx.input = proxy.input destination := rfl
  have policies : ((proxy.tunnel destination).inspection config).engine = proxy.engine := rfl
  unfold Inspection.handle Inspection.redactedTarget Inspection.evaluate evaluateL7Request Refuses
  simp only [resolver, mode, asked, policies]
  cases proxy.engine.allowRequest (L7RequestInfo.data ⟨request.action, request.target, request.queryParams⟩)
    (proxy.input destination) <;> cases config.enforcement <;> simp

/-- A request is permitted in a tunnel if its header block fits, its query can be read and the policy does not
    refuse it. -/
theorem permits_originRequest (plain : proxy.secretResolver = none) (isMethod : IsWord method) (isTarget : IsWord target)
    {client upstream : ByteStream} {more : List UInt8}
    (sent : client.bytes = utf8Encode (originRequest method target) ++ more) :
    ((proxy.tunnel destination).inspection config).Permits client upstream ↔
      (utf8Encode (originRequest method target)).length ≤ maxHeaderBytes + 1 ∧
        ∃ parsed, parseTargetQuery target = .ok parsed ∧
          ¬ proxy.Refuses destination config ⟨method, parsed.1, parsed.2⟩ := by
  have ended := headerEnd_originRequest isMethod isTarget
  have filled : utf8Encode (originRequest method target) ≠ [] := by
    rw [utf8Encode_originRequest]
    simp [crlf]
  obtain ⟨reads, overflows⟩ := parseHttpRequest_of_block sent filled ended
  rw [Inspection.permits_iff]
  rcases Nat.lt_or_ge (maxHeaderBytes + 1) (utf8Encode (originRequest method target)).length with long | fits
  · obtain ⟨error, behind, failed⟩ := overflows long
    simp only [failed, Prod.mk.injEq, reduceCtorEq, false_and, exists_false, false_iff, not_and]
    intro fits
    omega
  · obtain ⟨behind, read⟩ := reads fits
    rw [parseHeaderBlock_originRequest isMethod isTarget] at read
    cases query : parseTargetQuery target with
    | error error =>
      rw [query] at read
      simp [read, Except.map]
    | ok parsed =>
      rw [query] at read
      constructor
      · rintro ⟨request, rest, allowed, result, parsedRequest, relayed⟩
        refine ⟨fits, parsed, rfl, ?_⟩
        have kept := (handle_relayed_iff plain request).mp ⟨allowed, result, relayed⟩
        rw [read] at parsedRequest
        cases parsedRequest
        exact kept
      · rintro ⟨_, _, same, kept⟩
        cases same
        obtain ⟨allowed, result, relayed⟩ := (handle_relayed_iff plain ⟨method, parsed.1, parsed.2,
          utf8Encode (originRequest method target), .none⟩).mpr kept
        exact ⟨_, behind, allowed, result, read, relayed⟩

/-- The two ways agree on a request exactly if the tunnel can read it or the policy refuses it with its unread
    query. -/
theorem forward_agrees_iff (plain : proxy.secretResolver = none)
    (allowed : (proxy.decision destination.host destination.port).action = .allow matchedPolicy)
    (configured : (proxy.tunnel destination).l7Config = some config) (isMethod : IsWord method)
    (isTarget : IsWord target) {client upstream : ByteStream} {more : List UInt8}
    (sent : client.bytes = utf8Encode (originRequest method target) ++ more) :
    (proxy.evaluateForward (proxy.decision destination.host destination.port) matchedPolicy method destination.host
          destination.port target = none ↔
        ((proxy.tunnel destination).inspection config).Permits client upstream) ↔
      ((utf8Encode (originRequest method target)).length ≤ maxHeaderBytes + 1 ∧
          ∃ parsed, parseTargetQuery target = .ok parsed) ∨
        proxy.Refuses destination config (forwardRequestInfo method target) := by
  rw [evaluateForward_eq_none allowed configured, permits_originRequest plain isMethod isTarget sent]
  cases query : parseTargetQuery target with
  | error error => simp
  | ok parsed =>
    have info : forwardRequestInfo method target = ⟨method, parsed.1, parsed.2⟩ := by
      unfold forwardRequestInfo
      rw [query]
      rfl
    rw [info]
    simp only [Except.ok.injEq, exists_eq_left', exists_eq', and_true]
    tauto

end Proxy

section Example

def getEndpoint : EndpointData :=
  { host := some "api.example", ports := [80], protocol := some "rest", enforcement := some "enforce",
    rules := [{ method := some "GET", path := some "**" }] }

def getProxy : Proxy :=
  curlProxy { entries := [("api", ⟨[getEndpoint], ["/usr/bin/curl"]⟩)], sorted := by simp } publicIp

def getDestination : Destination := ⟨"api.example".toList, 80⟩

def getClient (target : List Char) (short : (utf8Encode (originRequest "GET".toList target)).length < 2 ^ 64) :
    ByteStream where
  segments := [utf8Encode (originRequest "GET".toList target)]
  nonempty segment member := by
    rw [List.mem_singleton.mp member, utf8Encode_originRequest]
    simp [crlf]
  bounded := by simpa using short

def brokenQuery : List Char := "/a?x=%zz".toList

def brokenClient : ByteStream := getClient brokenQuery (by decide +kernel)

def plainQuery : List Char := "/a?x=1".toList

def plainClient : ByteStream := getClient plainQuery (by decide +kernel)

theorem getProxy_allows : (getProxy.decision getDestination.host getDestination.port).action = .allow (some "api") := by
  decide +kernel

theorem getProxy_configured : (getProxy.tunnel getDestination).l7Config = some ⟨.rest, .auto, .enforce⟩ := by
  decide +kernel

theorem isWord_get : IsWord "GET".toList := ⟨by decide, plain_of_all (by decide)⟩

theorem isWord_brokenQuery : IsWord brokenQuery := ⟨by decide, plain_of_all (by decide)⟩

theorem isWord_plainQuery : IsWord plainQuery := ⟨by decide, plain_of_all (by decide)⟩

/-- With a query that cannot be decoded the request is forwarded, and the tunnel does not take it. -/
theorem brokenClient_disagrees :
    getProxy.secretResolver = none ∧
      ¬ (getProxy.evaluateForward (getProxy.decision getDestination.host getDestination.port) (some "api") "GET".toList
            getDestination.host getDestination.port brokenQuery = none ↔
          ((getProxy.tunnel getDestination).inspection ⟨.rest, .auto, .enforce⟩).Permits brokenClient noContent) := by
  refine ⟨rfl, ?_⟩
  intro agree
  have forwarded : getProxy.evaluateForward (getProxy.decision getDestination.host getDestination.port) (some "api")
      "GET".toList getDestination.host getDestination.port brokenQuery = none := by
    decide +kernel
  obtain ⟨_, parsed, query, _⟩ := (Proxy.permits_originRequest rfl isWord_get isWord_brokenQuery
    (List.append_nil _)).mp (agree.mp forwarded)
  cases query

theorem plainClient_agrees :
    (getProxy.evaluateForward (getProxy.decision getDestination.host getDestination.port) (some "api") "GET".toList
          getDestination.host getDestination.port plainQuery = none ↔
        ((getProxy.tunnel getDestination).inspection ⟨.rest, .auto, .enforce⟩).Permits plainClient noContent) := by
  apply (Proxy.forward_agrees_iff rfl getProxy_allows getProxy_configured isWord_get isWord_plainQuery
    (List.append_nil _).symm).mpr
  left
  exact ⟨by decide +kernel, _, rfl⟩

end Example

end OpenShell.Sandbox
