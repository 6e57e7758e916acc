import OpenShell.Sandbox.InferenceStreaming
import OpenShell.Sandbox.Interception

namespace OpenShell.Sandbox.Inference

open Text

/-! Where an intercepted request goes: the target it is matched and forwarded with. -/

structure InferenceApiPattern where
  method : List Char
  pathGlob : List Char
  protocol : List Char
  kind : List Char

def pattern (method pathGlob protocol kind : String) : InferenceApiPattern :=
  ⟨method.toList, pathGlob.toList, protocol.toList, kind.toList⟩

def defaultPatterns : List InferenceApiPattern := [
  pattern "POST" "/v1/chat/completions" "openai_chat_completions" "chat_completion",
  pattern "POST" "/v1/completions" "openai_completions" "completion",
  pattern "POST" "/v1/responses" "openai_responses" "responses",
  pattern "POST" "/v1/messages" "anthropic_messages" "messages",
  pattern "GET" "/v1/models" "model_discovery" "models_list",
  pattern "GET" "/v1/models/*" "model_discovery" "models_get"]

/-- A glob that ends in a slash and a star stands for the path before it and for the paths below that. -/
def InferenceApiPattern.covers (pattern : InferenceApiPattern) (pathOnly : List Char) : Bool :=
  match pattern.pathGlob.dropSuffix? "/*".toList with
  | some root => pathOnly == root || (stripPrefix root pathOnly).any fun suffix => suffix.head? == some '/'
  | none => pathOnly == pattern.pathGlob

def detectInferencePattern (method path : List Char) (patterns : List InferenceApiPattern) :
    Option InferenceApiPattern :=
  let pathOnly := (split '?' path).headD path
  patterns.find? fun pattern => eqIgnoreAsciiCase method pattern.method && pattern.covers pathOnly

def normalizeInferencePath (path : List Char) : List Char :=
  match position "://".toList path with
  | some schemeIdx =>
    let afterScheme := path.drop (schemeIdx + 3)
    match position ['/'] afterScheme with
    | some pathStart => afterScheme.drop pathStart
    | none => ['/']
  | none => path

/-! Headers that are not passed on. -/

def isHopByHopHeader (name : List Char) : Bool :=
  ["connection", "keep-alive", "proxy-authenticate", "proxy-authorization", "proxy-connection", "te", "trailer",
    "transfer-encoding", "upgrade"].any fun header => header.toList == name

def shouldStripRequestHeader (name : List Char) : Bool :=
  let nameLc := toAsciiLowercase name
  (["authorization", "x-api-key", "host", "content-length"].any fun header => header.toList == nameLc) ||
    isHopByHopHeader nameLc

def shouldStripResponseHeader (name : List Char) : Bool :=
  let nameLc := toAsciiLowercase name
  nameLc == "content-length".toList || isHopByHopHeader nameLc

def sanitizeInferenceRequestHeaders (headers : List (List Char × List Char)) : List (List Char × List Char) :=
  headers.filter fun header => !shouldStripRequestHeader header.1

def sanitizeInferenceResponseHeaders (headers : List (List Char × List Char)) : List (List Char × List Char) :=
  headers.filter fun header => !shouldStripResponseHeader header.1

/-! The router and its answers. -/

inductive RouterError where
  | routeNotFound
  | noCompatibleRoute
  | unauthorized
  | upstreamUnavailable
  | upstreamProtocol
  | internal

def routerErrorToHttp : RouterError → Nat × String
  | .routeNotFound => (400, "no inference route configured")
  | .noCompatibleRoute => (400, "no compatible inference route available")
  | .unauthorized => (401, "unauthorized")
  | .upstreamUnavailable => (503, "inference service unavailable")
  | .upstreamProtocol | .internal => (502, "inference service error")

/-- What `proxy_with_candidates_streaming` is called with. -/
structure RouterCall where
  protocol : List Char
  method : List Char
  path : List Char
  headers : List (List Char × List Char)
  body : List UInt8

/-- A response from upstream, with the chunks that come before it ends, fails or falls idle. -/
structure StreamedResponse where
  status : Nat
  headers : List (List Char × List Char)
  chunks : List (List UInt8)

structure InferenceContext where
  patterns : List InferenceApiPattern
  hasRoutes : Bool
  router : RouterCall → Except RouterError StreamedResponse

def streamStatusText (status : Nat) : String :=
  if status = 503 then "Service Unavailable" else responseStatusText status

def formatHttpResponseHeader (status : Nat) (headers : List (List Char × List Char)) : List UInt8 :=
  let statusLine := "HTTP/1.1 ".toList ++ Nat.toDigits 10 status ++ ' ' :: (streamStatusText status).toList ++ crlfText
  let kept := headers.filter fun field =>
    !(eqIgnoreAsciiCase field.1 "content-length".toList || eqIgnoreAsciiCase field.1 "transfer-encoding".toList)
  let fields := kept.flatMap fun field => field.1 ++ ": ".toList ++ field.2 ++ crlfText
  utf8Encode (statusLine ++ fields ++ "transfer-encoding: chunked".toList ++ crlfText ++ crlfText)

def jsonResponse (status : Nat) (body : String) : List UInt8 :=
  formatHttpResponse status [("content-type".toList, "application/json".toList)] (utf8Encode body.toList)

def errorJson (message : String) : String := "\x7b\"error\":\"" ++ message ++ "\"\x7d"

/-- What becomes of a request: the path that the patterns are matched against, the call of the router, the bytes that
are written to the client, and whether the request counts as routed. -/
structure RoutedRequest where
  matchedPath : List Char
  call : Option RouterCall := none
  written : List UInt8
  routed : Bool

def routeInferenceRequest (ctx : InferenceContext) (request : ParsedHttpRequest) : RoutedRequest :=
  let normalizedPath := normalizeInferencePath request.path
  match detectInferencePattern request.method normalizedPath ctx.patterns with
  | none =>
    { matchedPath := normalizedPath, written := jsonResponse 403 (errorJson "connection not allowed by policy"),
      routed := false }
  | some pattern =>
    if !ctx.hasRoutes then
      { matchedPath := normalizedPath
        written := jsonResponse 503 ("\x7b\"error\":\"cluster inference is not configured\"," ++
          "\"hint\":\"run: openshell cluster inference set --help\"\x7d")
        routed := true }
    else
      let call : RouterCall :=
        { protocol := pattern.protocol, method := request.method, path := normalizedPath,
          headers := sanitizeInferenceRequestHeaders request.headers, body := request.body }
      match ctx.router call with
      | .ok response =>
        { matchedPath := normalizedPath, call := some call, routed := true
          written := formatHttpResponseHeader response.status (sanitizeInferenceResponseHeaders response.headers) ++
            streamBody response.chunks }
      | .error error =>
        { matchedPath := normalizedPath, call := some call, routed := true
          written := jsonResponse (routerErrorToHttp error).1 (errorJson (routerErrorToHttp error).2) }

/-! The path that is used. -/

section Paths

variable {path : List Char}

theorem normalizeInferencePath_of_notInfix (plain : ¬ "://".toList <:+: path) : normalizeInferencePath path = path := by
  rw [normalizeInferencePath, position_none_iff_notInfix.mpr plain]

/-- The scheme of an absolute form has no colon, and its authority no slash. -/
theorem normalizeInferencePath_absolute {scheme authority : List Char} (rest : List Char) (noColon : ':' ∉ scheme)
    (noSlash : '/' ∉ authority) :
    normalizeInferencePath (scheme ++ "://".toList ++ authority ++ '/' :: rest) = '/' :: rest := by
  have found : position "://".toList (scheme ++ "://".toList ++ authority ++ '/' :: rest) = some scheme.length := by
    have first := @position_of_notMem _ _ ':' ['/', '/'] scheme noColon (authority ++ '/' :: rest)
    rw [← first]
    simp
  have afterScheme : (scheme ++ "://".toList ++ authority ++ '/' :: rest).drop (scheme.length + 3) =
      authority ++ '/' :: rest := by
    rw [List.append_assoc, List.append_assoc, List.drop_append, ← List.append_assoc]
    simp
  have start : position ['/'] (authority ++ '/' :: rest) = some authority.length :=
    @position_of_notMem _ _ '/' [] authority noSlash rest
  rw [normalizeInferencePath, found]
  simp only [afterScheme, start, List.drop_left]

/-- What is left behind a scheme is shorter than the target. -/
theorem normalizeInferencePath_eq_iff : normalizeInferencePath path = path ↔ ¬ "://".toList <:+: path := by
  refine ⟨fun same cut => ?_, normalizeInferencePath_of_notInfix⟩
  rw [normalizeInferencePath] at same
  cases found : position "://".toList path with
  | none => exact absurd cut (position_none_iff_notInfix.mp found)
  | some schemeIdx =>
    have reaches := position_reaches found
    rw [show "://".toList.length = 3 from rfl] at reaches
    rw [found] at same
    have lengths := congrArg List.length same
    cases start : position ['/'] (path.drop (schemeIdx + 3)) with
    | none =>
      simp only [start, List.length_singleton] at lengths
      omega
    | some pathStart =>
      simp only [start, List.length_drop] at lengths
      omega

end Paths

section Requests

variable {ctx : InferenceContext} {request : ParsedHttpRequest}

/-- The request is matched against a path, and handed to the router with it if it is handed on. -/
def UsesPath (ctx : InferenceContext) (request : ParsedHttpRequest) (path : List Char) : Prop :=
  (routeInferenceRequest ctx request).matchedPath = path ∧
    ∀ call ∈ (routeInferenceRequest ctx request).call, call.path = path

theorem usesPath_normalized : UsesPath ctx request (normalizeInferencePath request.path) := by
  unfold UsesPath routeInferenceRequest
  dsimp only
  cases detectInferencePattern request.method (normalizeInferencePath request.path) ctx.patterns with
  | none => exact ⟨rfl, fun call member => by cases member⟩
  | some pattern =>
    cases ctx.hasRoutes with
    | false => exact ⟨rfl, fun call member => by cases member⟩
    | true =>
      simp only [Bool.not_true, Bool.false_eq_true, if_false]
      split
      · exact ⟨rfl, fun call member => by cases member; rfl⟩
      · exact ⟨rfl, fun call member => by cases member; rfl⟩

theorem usesPath_iff {path : List Char} : UsesPath ctx request path ↔ normalizeInferencePath request.path = path := by
  constructor
  · intro uses
    rw [← uses.1, ← usesPath_normalized.1]
  · rintro rfl
    exact usesPath_normalized

end Requests

/-- A target in origin form is used as it is exactly if it has no `://` in it; of one in absolute form the path is
used. -/
theorem targets_used (ctx : InferenceContext) (request : ParsedHttpRequest) :
    (request.path.head? = some '/' → (UsesPath ctx request request.path ↔ ¬ "://".toList <:+: request.path)) ∧
    ∀ scheme authority rest, ':' ∉ scheme → '/' ∉ authority →
      request.path = scheme ++ "://".toList ++ authority ++ '/' :: rest → UsesPath ctx request ('/' :: rest) := by
  refine ⟨fun _ => usesPath_iff.trans normalizeInferencePath_eq_iff, ?_⟩
  intro scheme authority rest noColon noSlash absolute
  rw [usesPath_iff, absolute, normalizeInferencePath_absolute rest noColon noSlash]

/-- Its router answers nothing. -/
def closedContext : InferenceContext := ⟨defaultPatterns, true, fun _ => .error .upstreamUnavailable⟩

def requestFor (path : String) : ParsedHttpRequest := ⟨"GET".toList, path.toList, [], []⟩

/-- A URL in the query takes the place of the target. -/
theorem query_taken_for_target : ¬∀ ctx request,
    request.path.head? = some '/' → UsesPath ctx request request.path := by
  intro unchanged
  have uses := unchanged closedContext (requestFor "/other?next=http://example.com/v1/models") (by decide +kernel)
  exact ((targets_used closedContext _).1 (by decide +kernel)).mp uses (by decide +kernel)

theorem models_used : UsesPath closedContext (requestFor "/v1/models?limit=2") "/v1/models?limit=2".toList ∧
    UsesPath closedContext (requestFor "https://inference.local:443/v1/models") "/v1/models".toList :=
  ⟨((targets_used closedContext (requestFor "/v1/models?limit=2")).1 (by decide +kernel)).mpr (by decide +kernel),
    (targets_used closedContext (requestFor "https://inference.local:443/v1/models")).2 "https".toList
      "inference.local:443".toList "v1/models".toList (by decide +kernel) (by decide +kernel) (by decide +kernel)⟩

end OpenShell.Sandbox.Inference
