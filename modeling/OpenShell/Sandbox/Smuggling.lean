import OpenShell.Sandbox.Framing
import OpenShell.Sandbox.Relay

namespace OpenShell.Sandbox

open Text Streams

/-! Which bytes of the client reach the upstream through the REST relay. -/

namespace Inspection

variable (relay : Inspection)

def allows (request : L7Request) : Bool :=
  match relay.redactedTarget request with
  | .ok target => (relay.evaluate request target).1
  | .error _ => false

/-- The header block that is sent on for an allowed request, if its credentials can be put in. -/
def forwardedHeader (request : L7Request) : Option (List UInt8) :=
  if relay.allows request then
    (rewriteHttpHeaderBlock relay.base64 (requestHeader request) relay.ctx.secretResolver).toOption.map
      (·.rewritten)
  else none

/-- What may be sent upstream for a request: nothing, or its own header block and its own body. -/
def Owns (exchange : Exchange) (piece : List UInt8) : Prop :=
  match relay.forwardedHeader exchange.request with
  | none => piece = []
  | some header =>
    ∃ body, piece = header ++ body ∧ OwnBody exchange.request.bodyLength exchange.behind.bytes body

/-- Every request is parsed from where the relay left the client's stream after the one before, which had
    its whole body. -/
def Chained : ByteStream → List Exchange → Prop
  | _, [] => True
  | client, exchange :: later =>
    parseHttpRequest client = (.ok (some exchange.request), exchange.behind) ∧
      (later ≠ [] → ∃ body, Framed exchange.request.bodyLength exchange.behind.bytes body) ∧
      Chained exchange.rest later

structure NoSmuggling (client : ByteStream) (run : RestRun) : Prop where
  chained : Chained client run.exchanges
  sent : ∃ pieces, List.Forall₂ relay.Owns run.exchanges pieces ∧ run.sent = pieces.flatten
  /-- After a request that was sent on, parsing starts at the first byte behind its body. -/
  resumes : ∀ exchange ∈ run.exchanges, (relay.forwardedHeader exchange.request).isSome →
    ∀ body, Framed exchange.request.bodyLength exchange.behind.bytes body →
      exchange.rest.bytes = exchange.behind.bytes.drop body.length

/-- The reads that bring the body of a request that is sent on end where a chunked body ends. -/
def Aligned (exchange : Exchange) : Prop :=
  (relay.forwardedHeader exchange.request).isSome → EndsWithRead exchange.request.bodyLength exchange.behind

structure Handled (exchange : Exchange) : Prop where
  parsed : parseHttpRequest exchange.client = (.ok (some exchange.request), exchange.behind)
  verdict : ∃ upstream, exchange.verdict = relay.handle exchange.request exchange.behind upstream

end Inspection

def Exchange.switched (exchange : Exchange) : Bool :=
  match exchange.verdict with
  | .relayed _ result =>
    match result.outcome with
    | .ok (.upgraded _) => true
    | _ => false
  | _ => false

namespace Inspection

variable {relay : Inspection} {exchange : Exchange} {client upstream : ByteStream} {fuel : Nat}

/-! One request. -/

theorem requestHeader_of_parsed {request : L7Request} {behind : ByteStream}
    (parsed : parseHttpRequest client = (.ok (some request), behind)) :
    requestHeader request = request.rawHeader ∧ requestOverflow request = [] := by
  obtain ⟨_, _, ended⟩ := parseHttpRequest_request parsed
  simp only [requestHeader, requestOverflow, ended, Option.getD_some, List.take_length, List.drop_length, and_self]

theorem handle_allowed {request : L7Request} (allowed : relay.allows request = true) :
    relay.handle request client upstream = .relayed true
      (relayHttpRequestWithResolver relay.base64 request client upstream relay.ctx.secretResolver) := by
  unfold allows at allowed
  unfold handle
  split at allowed
  · rename_i target shown
    cases answer : relay.evaluate request target with
    | mk verdict reason =>
      rw [answer] at allowed
      simp only [shown, answer, allowed, Bool.true_or, if_true]
  · cases allowed

theorem handle_refused {request : L7Request} (enforced : relay.config.enforcement = .enforce)
    (refused : relay.allows request = false) (allowed : Bool) (result : RelayedRequest) :
    relay.handle request client upstream ≠ .relayed allowed result := by
  unfold allows at refused
  unfold handle
  split at refused
  · rename_i target shown
    cases answer : relay.evaluate request target with
    | mk verdict reason =>
      rw [answer] at refused
      simp only [shown, answer, refused, enforced, Bool.false_or, decide_eq_true_eq, reduceCtorEq, if_false, ne_eq,
        not_false_eq_true]
  · rename_i shown
    simp only [shown, ne_eq, reduceCtorEq, not_false_eq_true]

theorem relayHttpRequest_rewritten {request : L7Request} {resolver : Option SecretResolver}
    {rewrite : RewriteResult} (overflow : requestOverflow request = [])
    (rewritten : rewriteHttpHeaderBlock relay.base64 (requestHeader request) resolver = .ok rewrite) :
    (relayHttpRequestWithResolver relay.base64 request client upstream resolver).sent =
        rewrite.rewritten ++ (relayBody request.bodyLength [] client).forwarded ∧
      (relayHttpRequestWithResolver relay.base64 request client upstream resolver).client =
        (relayBody request.bodyLength [] client).reader := by
  unfold relayHttpRequestWithResolver
  simp only [rewritten, overflow, List.append_nil]
  split <;> exact ⟨rfl, rfl⟩

theorem handle_relayed {request : L7Request} {allowed : Bool} {result : RelayedRequest}
    (relayed : relay.handle request client upstream = .relayed allowed result) :
    result = relayHttpRequestWithResolver relay.base64 request client upstream relay.ctx.secretResolver := by
  unfold handle at relayed
  simp only at relayed
  split at relayed
  · cases relayed
  · split at relayed
    · cases relayed
      rfl
    · cases relayed

theorem relayBody_of_outcome {request : L7Request} {resolver : Option SecretResolver} {outcome : RelayOutcome}
    (overflow : requestOverflow request = [])
    (answered : (relayHttpRequestWithResolver relay.base64 request client upstream resolver).outcome = .ok outcome) :
    (relayBody request.bodyLength [] client).result = .ok () := by
  unfold relayHttpRequestWithResolver at answered
  simp only [overflow] at answered
  split at answered
  · cases answered
  · split at answered
    · cases answered
    · assumption

theorem Handled.forwarded (handled : relay.Handled exchange) {header : List UInt8}
    (forwards : relay.forwardedHeader exchange.request = some header) :
    exchange.sent = header ++ (relayBody exchange.request.bodyLength [] exchange.behind).forwarded ∧
      exchange.rest = (relayBody exchange.request.bodyLength [] exchange.behind).reader := by
  obtain ⟨upstream, verdict⟩ := handled.verdict
  obtain ⟨_, overflow⟩ := requestHeader_of_parsed handled.parsed
  unfold forwardedHeader at forwards
  split at forwards
  · rename_i allowed
    rw [handle_allowed allowed] at verdict
    cases rewritten : rewriteHttpHeaderBlock relay.base64 (requestHeader exchange.request)
        relay.ctx.secretResolver with
    | error error =>
      rw [rewritten] at forwards
      cases forwards
    | ok rewrite =>
      rw [rewritten] at forwards
      cases forwards
      simp only [Exchange.sent, Exchange.rest, verdict]
      exact relayHttpRequest_rewritten overflow rewritten
  · cases forwards

theorem Handled.withheld (handled : relay.Handled exchange) (enforced : relay.config.enforcement = .enforce)
    (withholds : relay.forwardedHeader exchange.request = none) : exchange.sent = [] := by
  obtain ⟨upstream, verdict⟩ := handled.verdict
  unfold forwardedHeader at withholds
  split at withholds
  · rename_i allowed
    rw [handle_allowed allowed] at verdict
    cases rewritten : rewriteHttpHeaderBlock relay.base64 (requestHeader exchange.request)
        relay.ctx.secretResolver with
    | error error => simp only [Exchange.sent, verdict, relayHttpRequestWithResolver, rewritten]
    | ok rewrite =>
      rw [rewritten] at withholds
      cases withholds
  · rename_i refused
    rw [Bool.not_eq_true] at refused
    unfold Exchange.sent
    split
    · rename_i relayed
      exact absurd (verdict.symm.trans relayed) (handle_refused enforced refused _ _)
    · rfl

theorem Handled.owns (handled : relay.Handled exchange) (enforced : relay.config.enforcement = .enforce)
    (aligned : relay.Aligned exchange) : relay.Owns exchange exchange.sent := by
  unfold Owns
  split
  · rename_i withholds
    exact handled.withheld enforced withholds
  · rename_i header forwards
    have ends := aligned (by rw [forwards]; rfl)
    exact ⟨_, (handled.forwarded forwards).1, relayBody_own ends⟩

theorem Handled.resumes (handled : relay.Handled exchange) (aligned : relay.Aligned exchange)
    (forwards : (relay.forwardedHeader exchange.request).isSome) {body : List UInt8}
    (framed : Framed exchange.request.bodyLength exchange.behind.bytes body) :
    exchange.rest.bytes = exchange.behind.bytes.drop body.length := by
  obtain ⟨header, is_header⟩ := Option.isSome_iff_exists.mp forwards
  have own := relayBody_own (aligned forwards)
  have split := relayBody_bytes exchange.request.bodyLength [] exchange.behind
  rw [own.whole body framed] at split
  have left := congrArg (List.drop body.length) split
  rw [List.drop_left] at left
  rw [(handled.forwarded is_header).2, left]

theorem Handled.aligned (handled : relay.Handled exchange)
    (resumes : (relay.forwardedHeader exchange.request).isSome →
      ∀ body, Framed exchange.request.bodyLength exchange.behind.bytes body →
        exchange.rest.bytes = exchange.behind.bytes.drop body.length) : relay.Aligned exchange := by
  intro forwards
  obtain ⟨header, is_header⟩ := Option.isSome_iff_exists.mp forwards
  apply endsWithRead_of_left
  intro framed is_framed
  rw [← (handled.forwarded is_header).2]
  exact resumes forwards framed is_framed

/-! A whole run. -/

theorem Handled.framed_of_again (handled : relay.Handled exchange) {next : ByteStream}
    (again : exchange.continuation = .again next upstream) :
    next = exchange.rest ∧ ∃ body, Framed exchange.request.bodyLength exchange.behind.bytes body := by
  obtain ⟨source, verdict⟩ := handled.verdict
  obtain ⟨_, overflow⟩ := requestHeader_of_parsed handled.parsed
  unfold Exchange.continuation at again
  split at again
  · cases again
  · cases again
  · rename_i allowed result relayed
    split at again
    · cases again
    · rename_i reusable
      cases again
      refine ⟨by simp only [Exchange.rest, relayed], framed_of_relayBody ?_⟩
      rw [handle_relayed (verdict.symm.trans relayed)] at reusable
      exact relayBody_of_outcome overflow reusable
    · cases again
    · cases again

theorem relayHttpRequest_left {request : L7Request} {resolver : Option SecretResolver}
    (overflow : requestOverflow request = []) : ∃ taken, client.bytes =
      taken ++ (relayHttpRequestWithResolver relay.base64 request client upstream resolver).client.bytes := by
  unfold relayHttpRequestWithResolver
  simp only [overflow]
  split
  · exact ⟨[], rfl⟩
  · split <;> exact ⟨_, relayBody_bytes request.bodyLength [] client⟩

theorem Handled.shorter (handled : relay.Handled exchange) {next : ByteStream}
    (again : exchange.continuation = .again next upstream) :
    next.bytes.length < exchange.client.bytes.length := by
  obtain ⟨header, filled, _⟩ := parseHttpRequest_request handled.parsed
  obtain ⟨_, overflow⟩ := requestHeader_of_parsed handled.parsed
  obtain ⟨source, verdict⟩ := handled.verdict
  have positive := List.length_pos_iff.mpr filled
  have left : ∃ taken, exchange.behind.bytes = taken ++ exchange.rest.bytes := by
    unfold Exchange.rest
    split
    · rename_i relayed
      rw [handle_relayed (verdict.symm.trans relayed)]
      exact relayHttpRequest_left overflow
    · exact ⟨[], rfl⟩
  obtain ⟨taken, split⟩ := left
  rw [(handled.framed_of_again again).1, header, split, List.length_append, List.length_append]
  omega

theorem relayRestFor_enough {larger : Nat} (enough : client.bytes.length < fuel) (more : fuel ≤ larger) :
    relay.relayRestFor larger client upstream = relay.relayRestFor fuel client upstream := by
  induction fuel generalizing larger client upstream with
  | zero => omega
  | succ fuel ih =>
    cases larger with
    | zero => omega
    | succ larger =>
      unfold relayRestFor
      simp only
      split
      · rename_i request behind parsed
        have handled : relay.Handled ⟨client, request, behind, relay.handle request behind upstream⟩ :=
          ⟨parsed, upstream, rfl⟩
        split
        · rename_i next left again
          have shorter := handled.shorter again
          simp only at shorter
          rw [ih (by omega) (by omega)]
        · rfl
      · rfl
      · rfl

/-- What a run of the relay between a client's stream and an upstream's can be, exchange by exchange. -/
inductive Runs (relay : Inspection) : ByteStream → ByteStream → RestRun → Prop
  | idle {client upstream : ByteStream} {result : Except String Unit} : Runs relay client upstream ⟨[], [], result⟩
  | last {exchange : Exchange} {upstream : ByteStream} {raw : List UInt8} {result : Except String Unit}
      (handled : relay.Handled exchange)
      (answered : exchange.verdict = relay.handle exchange.request exchange.behind upstream)
      (stops : exchange.continuation = .stop result raw) :
      Runs relay exchange.client upstream ⟨[exchange], raw, result⟩
  | more {exchange : Exchange} {upstream next left : ByteStream} {run : RestRun}
      (handled : relay.Handled exchange)
      (answered : exchange.verdict = relay.handle exchange.request exchange.behind upstream)
      (again : exchange.continuation = .again next left) (later : Runs relay next left run) :
      Runs relay exchange.client upstream { run with exchanges := exchange :: run.exchanges }

theorem runs_relayRestFor (fuel : Nat) (client upstream : ByteStream) :
    relay.Runs client upstream (relay.relayRestFor fuel client upstream) := by
  induction fuel generalizing client upstream with
  | zero => exact .idle
  | succ fuel ih =>
    unfold relayRestFor
    simp only
    split
    · rename_i request behind parsed
      have handled : relay.Handled ⟨client, request, behind, relay.handle request behind upstream⟩ :=
        ⟨parsed, upstream, rfl⟩
      split
      · rename_i again
        exact .more handled rfl again (ih _ _)
      · rename_i stops
        exact .last handled rfl stops
    · exact .idle
    · exact .idle

theorem Runs.handled {run : RestRun} (runs : relay.Runs client upstream run) :
    ∀ exchange ∈ run.exchanges, relay.Handled exchange := by
  induction runs with
  | idle => exact fun exchange member => absurd member List.not_mem_nil
  | last handled answered stops =>
    intro exchange member
    rw [List.mem_singleton.mp member]
    exact handled
  | more handled answered again later ih =>
    intro exchange member
    rcases List.mem_cons.mp member with here | behind
    · rw [here]
      exact handled
    · exact ih exchange behind

theorem Runs.chained {run : RestRun} (runs : relay.Runs client upstream run) : Chained client run.exchanges := by
  induction runs with
  | idle => trivial
  | last handled answered stops => exact ⟨handled.parsed, fun more => absurd rfl more, trivial⟩
  | more handled answered again later ih =>
    obtain ⟨left, framed⟩ := handled.framed_of_again again
    exact ⟨handled.parsed, fun _ => framed, left ▸ ih⟩

theorem raw_of_stop {result : Except String Unit} {raw : List UInt8}
    (stops : exchange.continuation = .stop result raw) (stays : exchange.switched = false) : raw = [] := by
  unfold Exchange.continuation at stops
  split at stops
  · cases stops
    rfl
  · cases stops
    rfl
  · rename_i allowed relayed verdict
    split at stops
    · cases stops
      rfl
    · cases stops
    · cases stops
      rfl
    · rename_i overflow switched
      simp only [Exchange.switched, verdict, switched, Bool.true_eq_false] at stays

theorem Runs.raw {run : RestRun} (runs : relay.Runs client upstream run)
    (stays : ∀ exchange ∈ run.exchanges, exchange.switched = false) : run.raw = [] := by
  induction runs with
  | idle => rfl
  | last handled answered stops => exact raw_of_stop stops (stays _ List.mem_cons_self)
  | more handled answered again later ih =>
    exact ih fun exchange member => stays exchange (List.mem_cons_of_mem _ member)

theorem forall₂_sent {fits : Exchange → List UInt8 → Prop} {exchanges : List Exchange}
    (each : ∀ exchange ∈ exchanges, fits exchange exchange.sent) :
    List.Forall₂ fits exchanges (exchanges.map Exchange.sent) := by
  rw [List.forall₂_map_right_iff, List.forall₂_same]
  exact each

theorem Runs.noSmuggling {run : RestRun} (runs : relay.Runs client upstream run)
    (enforced : relay.config.enforcement = .enforce) (stays : ∀ exchange ∈ run.exchanges, exchange.switched = false)
    (aligned : ∀ exchange ∈ run.exchanges, relay.Aligned exchange) : relay.NoSmuggling client run where
  chained := runs.chained
  sent := by
    refine ⟨run.exchanges.map Exchange.sent, forall₂_sent fun exchange member => ?_, ?_⟩
    · exact (runs.handled exchange member).owns enforced (aligned exchange member)
    · rw [RestRun.sent, runs.raw stays, List.append_nil, List.flatMap]
  resumes := fun exchange member forwards _ framed =>
    (runs.handled exchange member).resumes (aligned exchange member) forwards framed

/-- The relay keeps every request to its own bytes exactly where each chunked body that it sends on ends
    with a read. -/
theorem noSmuggling_iff (relay : Inspection) (client upstream : ByteStream)
    (enforced : relay.config.enforcement = .enforce)
    (stays : ∀ exchange ∈ (relay.relayRest client upstream).exchanges, exchange.switched = false) :
    relay.NoSmuggling client (relay.relayRest client upstream) ↔
      ∀ exchange ∈ (relay.relayRest client upstream).exchanges, relay.Aligned exchange := by
  have runs : relay.Runs client upstream (relay.relayRest client upstream) := runs_relayRestFor _ client upstream
  refine ⟨fun clean exchange member => ?_, runs.noSmuggling enforced stays⟩
  exact (runs.handled exchange member).aligned (clean.resumes exchange member)

end Inspection

/-! A policy for one host that allows `POST` only, and a client that sends a `GET` in the segment in which
its chunked body ends. -/

def postOnly : Inspection where
  base64 := ⟨fun _ => none, fun _ => []⟩
  engine :=
    { builtins := plainBuiltins
      networkPolicies :=
        { entries := [("api", {
            endpoints := [{ host := some "api.example", ports := [443], protocol := some "rest",
                            enforcement := some "enforce",
                            rules := [{ method := some "POST", path := some "**" }] }]
            binaries := ["/usr/bin/curl"] })]
          sorted := List.pairwise_singleton _ _ } }
  config := ⟨.rest, .auto, .enforce⟩
  ctx := { host := "api.example", port := 443, policyName := "api", binaryPath := "/usr/bin/curl" }

def emptyChunked : List UInt8 := utf8Encode "0\r\n\r\n".toList

def smuggler : ByteStream where
  segments :=
    [utf8Encode "POST /a HTTP/1.1\r\nTransfer-Encoding: chunked\r\n\r\n".toList,
      emptyChunked ++ utf8Encode "GET /b HTTP/1.1\r\n\r\n".toList]
  nonempty := by decide +kernel
  bounded := by decide +kernel

def noContent : ByteStream where
  segments := [utf8Encode "HTTP/1.1 204 No Content\r\n\r\n".toList]
  nonempty := by decide +kernel
  bounded := by decide +kernel

theorem emptyChunked_chunked : ChunkedBody emptyChunked := by
  have isLine : IsLine [0x30] := rfl
  have size : chunkSize [0x30] = .ok 0 := rfl
  exact .last isLine size .last

theorem smuggler_smuggles : postOnly.config.enforcement = .enforce ∧
    (∀ exchange ∈ (postOnly.relayRest smuggler noContent).exchanges, exchange.switched = false) ∧
    ¬ postOnly.NoSmuggling smuggler (postOnly.relayRest smuggler noContent) := by
  have evaluated : (∀ exchange ∈ (postOnly.relayRest smuggler noContent).exchanges, exchange.switched = false) ∧
      ∃ exchange ∈ (postOnly.relayRest smuggler noContent).exchanges,
        exchange.request.bodyLength = .chunked ∧ emptyChunked <+: exchange.behind.bytes ∧
        (postOnly.forwardedHeader exchange.request).isSome ∧
        exchange.rest.bytes ≠ exchange.behind.bytes.drop emptyChunked.length := by decide +kernel
  obtain ⟨stays, exchange, member, chunked, starts, forwards, lost⟩ := evaluated
  refine ⟨rfl, stays, fun clean => ?_⟩
  exact lost (clean.resumes exchange member forwards emptyChunked
    (chunked ▸ .chunked emptyChunked_chunked starts))

def pipeliner : ByteStream where
  segments :=
    [utf8Encode "POST /a HTTP/1.1\r\nTransfer-Encoding: chunked\r\n\r\n".toList, emptyChunked,
      utf8Encode "GET /b HTTP/1.1\r\n\r\n".toList]
  nonempty := by decide +kernel
  bounded := by decide +kernel

theorem pipeliner_noSmuggling : (postOnly.relayRest pipeliner noContent).exchanges.length = 2 ∧
    postOnly.NoSmuggling pipeliner (postOnly.relayRest pipeliner noContent) := by
  have evaluated : (postOnly.relayRest pipeliner noContent).exchanges.length = 2 ∧
      (∀ exchange ∈ (postOnly.relayRest pipeliner noContent).exchanges, exchange.switched = false) ∧
      ∀ exchange ∈ (postOnly.relayRest pipeliner noContent).exchanges,
        exchange.request.bodyLength ≠ .chunked ∨ exchange.behind.segments.head? = some emptyChunked := by
    decide +kernel
  obtain ⟨two, stays, cut⟩ := evaluated
  refine ⟨two, (Inspection.noSmuggling_iff postOnly pipeliner noContent rfl stays).mpr ?_⟩
  intro exchange member _ chunked _
  rcases cut exchange member with other | at_segment
  · exact absurd chunked other
  · have delivered := ByteStream.read_head at_segment (by decide : emptyChunked.length ≤ relayBufSize)
    have reads := ByteStream.Reads.more delivered .none
    rw [List.append_nil] at reads
    exact ⟨emptyChunked, _, emptyChunked_chunked, reads⟩

end OpenShell.Sandbox
