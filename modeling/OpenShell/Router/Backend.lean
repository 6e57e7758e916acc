import OpenShell.Lib.Json
import OpenShell.Router.Routes
import OpenShell.Sandbox.BackendUrl

namespace OpenShell.Router

open Text OpenShell.Sandbox.Inference

/-! What the router sends to the backend of a route. -/

/-- `serde_json`: what is read from the bytes of a document, and the bytes that a document is written as. -/
structure JsonCodec where
  parse : List UInt8 → Option Json
  render : Json → List UInt8

structure BackendRequest where
  method : List Char
  url : List Char
  headers : List (List Char × List Char)
  body : List UInt8
  timeoutSecs : Nat

inductive SendError where
  | timeout
  | connect
  | other

/-- The head of a response. A value that is no visible text is `none`. -/
structure BackendResponse where
  status : Nat
  headers : List (List Char × Option (List Char))
  chunks : List (List UInt8)

def methodSymbols : List Char := "!#$%&\x27*+-.^_\x60|~".toList

/-- `reqwest::Method::from_str`: a token of HTTP. -/
def isMethod (method : List Char) : Bool :=
  !method.isEmpty && method.all fun c => c.isAlphanum || methodSymbols.contains c

def stripHeaders : List String := ["authorization", "x-api-key", "host"]

def isStripped (name : List Char) : Bool := stripHeaders.any fun header => header.toList = toAsciiLowercase name

/-- The header the route authenticates with. -/
def credential (route : ResolvedRoute) : List Char × List Char :=
  match route.auth with
  | .bearer => ("authorization".toList, "Bearer ".toList ++ route.apiKey.toList)
  | .custom name => (name.toList, route.apiKey.toList)

def backendHeaders (route : ResolvedRoute) (headers : List (List Char × List Char)) : List (List Char × List Char) :=
  credential route :: headers.filter (fun header => !isStripped header.1) ++
    (route.defaultHeaders.filter fun header =>
      !headers.any fun sent => eqIgnoreAsciiCase sent.1 header.1.toList).map fun header =>
        (header.1.toList, header.2.toList)

/-- The `model` of a document that is an object is that of the route. -/
def backendBody (codec : JsonCodec) (route : ResolvedRoute) (body : List UInt8) : List UInt8 :=
  match codec.parse body with
  | some json => codec.render (json.insert "model" (.string route.model))
  | none => body

/-- The request that `send_backend_request` builds. -/
def buildRequest (codec : JsonCodec) (route : ResolvedRoute) (method path : List Char)
    (headers : List (List Char × List Char)) (body : List UInt8) : Except RouterError BackendRequest :=
  if isMethod method then
    .ok { method, url := buildBackendUrl route.endpoint.toList path, headers := backendHeaders route headers,
          body := backendBody codec route body, timeoutSecs := route.timeoutSecs }
  else .error .internal

def sendProblem : SendError → RouterError
  | .timeout | .connect => .upstreamUnavailable
  | .other => .internal

def streamed (response : BackendResponse) : StreamedResponse where
  status := response.status
  headers := response.headers.map fun header => (header.1, header.2.getD [])
  chunks := response.chunks

/-! Mock routes. -/

def isMockRoute (route : ResolvedRoute) : Bool := "mock://".toList.isPrefixOf route.endpoint.toList

def openaiChatCompletionBody (model : String) : Json :=
  .object [
    ("choices", .array [.object [("finish_reason", .string "stop"), ("index", .integer 0),
      ("message", .object [("content", .string "Hello from openshell mock backend"), ("role", .string "assistant")])]]),
    ("created", .integer 1700000000), ("id", .string "mock-chatcmpl-001"), ("model", .string model),
    ("object", .string "chat.completion"),
    ("usage", .object [("completion_tokens", .integer 5), ("prompt_tokens", .integer 1), ("total_tokens", .integer 6)])]

def openaiCompletionBody (model : String) : Json :=
  .object [
    ("choices", .array [.object [("finish_reason", .string "stop"), ("index", .integer 0),
      ("text", .string "Hello from openshell mock backend")]]),
    ("created", .integer 1700000000), ("id", .string "mock-cmpl-001"), ("model", .string model),
    ("object", .string "text_completion"),
    ("usage", .object [("completion_tokens", .integer 5), ("prompt_tokens", .integer 1), ("total_tokens", .integer 6)])]

def anthropicMessagesBody (model : String) : Json :=
  .object [
    ("content", .array [.object [("text", .string "Hello from openshell mock backend"), ("type", .string "text")]]),
    ("id", .string "mock-msg-001"), ("model", .string model), ("role", .string "assistant"),
    ("stop_reason", .string "end_turn"), ("type", .string "message"),
    ("usage", .object [("input_tokens", .integer 1), ("output_tokens", .integer 5)])]

def genericBody (model : String) : Json :=
  .object [("message", .string "Hello from openshell mock backend"), ("mock", .bool true), ("model", .string model)]

def mockBody (route : ResolvedRoute) (sourceProtocol : String) : Json :=
  let protocol := if route.protocols.contains sourceProtocol then sourceProtocol else route.protocols.headD ""
  if protocol = "openai_chat_completions" then openaiChatCompletionBody route.model
  else if protocol = "openai_completions" then openaiCompletionBody route.model
  else if protocol = "anthropic_messages" then anthropicMessagesBody route.model
  else genericBody route.model

def mockResponse (codec : JsonCodec) (route : ResolvedRoute) (sourceProtocol : String) : StreamedResponse where
  status := 200
  headers := [("content-type".toList, "application/json".toList), ("x-openshell-mock".toList, "true".toList)]
  chunks := [codec.render (mockBody route sourceProtocol)]

/-! One call of the router. -/

/-- What the backend is sent, and what the caller is answered. -/
structure Proxied where
  sent : Option BackendRequest := none
  answer : Except RouterError StreamedResponse

variable (codec : JsonCodec) (client : BackendRequest → Except SendError BackendResponse)

def proxyWithCandidatesStreaming (candidates : List ResolvedRoute) (call : RouterCall) : Proxied :=
  match candidate (String.ofList call.protocol) candidates with
  | none => { answer := .error .noCompatibleRoute }
  | some route =>
    if isMockRoute route then
      { answer := .ok (mockResponse codec route (normalized (String.ofList call.protocol))) }
    else
      match buildRequest codec route call.method call.path call.headers call.body with
      | .error problem => { answer := .error problem }
      | .ok request =>
        { sent := some request
          answer :=
            match client request with
            | .ok response => .ok (streamed response)
            | .error problem => .error (sendProblem problem) }

/-- The context that the proxy hands intercepted requests to, with the routes of its cache. -/
def contextOf (patterns : List InferenceApiPattern) (routes : List ResolvedRoute) : InferenceContext where
  patterns := patterns
  hasRoutes := !routes.isEmpty
  router call := (proxyWithCandidatesStreaming codec client routes call).answer

/-- What leaves for a backend while an intercepted request is handled. -/
def sentFor (patterns : List InferenceApiPattern) (routes : List ResolvedRoute) (request : ParsedHttpRequest) :
    Option BackendRequest :=
  (routeInferenceRequest (contextOf codec client patterns routes) request).call.bind fun call =>
    (proxyWithCandidatesStreaming codec client routes call).sent

/-! What a backend sees of a request. -/

/-- The values of the fields with a name, whatever the case of its letters. -/
def values (name : List Char) (headers : List (List Char × List Char)) : List (List Char) :=
  (headers.filter fun header => eqIgnoreAsciiCase header.1 name).map Prod.snd

def defaults (route : ResolvedRoute) : List (List Char × List Char) :=
  route.defaultHeaders.map fun header => (header.1.toList, header.2.toList)

section Headers

variable {route : ResolvedRoute} {name other : List Char} {headers more : List (List Char × List Char)}

theorem isStripped_congr (same : eqIgnoreAsciiCase other name = true) : isStripped other = isStripped name := by
  unfold isStripped
  rw [eqIgnoreAsciiCase, decide_eq_true_eq] at same
  rw [same]

theorem values_append : values name (headers ++ more) = values name headers ++ values name more := by
  unfold values
  rw [List.filter_append, List.map_append]

theorem values_kept : values name (headers.filter fun header => !isStripped header.1) =
    if isStripped name then [] else values name headers := by
  unfold values
  rw [List.filter_filter]
  split
  · rename_i stripped
    rw [List.map_eq_nil_iff, List.filter_eq_nil_iff]
    intro header _
    cases same : eqIgnoreAsciiCase header.1 name with
    | false => simp
    | true => simp [isStripped_congr same, stripped]
  · rename_i kept
    refine congrArg _ (List.filter_congr ?_)
    intro header _
    cases same : eqIgnoreAsciiCase header.1 name with
    | false => simp
    | true => simp [isStripped_congr same, kept]

theorem credential_stripped (profiled : route.Profiled) : isStripped (credential route).1 = true := by
  obtain ⟨providerType, same⟩ := profiled
  unfold credential
  rcases authForProviderType_cases providerType with plain | anthropic
  · rw [same, Prod.mk.injEq] at plain
    rw [plain.1]
    show isStripped "authorization".toList = true
    decide
  · rw [same, Prod.mk.injEq] at anthropic
    rw [anthropic.1]
    show isStripped "x-api-key".toList = true
    decide

theorem defaults_kept (profiled : route.Profiled) : ∀ header ∈ defaults route, isStripped header.1 = false := by
  obtain ⟨providerType, same⟩ := profiled
  intro header member
  unfold defaults at member
  rcases authForProviderType_cases providerType with plain | anthropic
  · rw [same, Prod.mk.injEq] at plain
    rw [plain.2] at member
    cases member
  · rw [same, Prod.mk.injEq] at anthropic
    rw [anthropic.2, List.map_singleton, List.mem_singleton] at member
    rw [member]
    decide

theorem values_cons (header : List Char × List Char) : values name (header :: headers) =
    (if eqIgnoreAsciiCase header.1 name then [header.2] else []) ++ values name headers := by
  unfold values
  rw [List.filter_cons]
  split <;> rfl

theorem values_eq_nil_iff :
    values name headers = [] ↔ (headers.any fun header => eqIgnoreAsciiCase header.1 name) = false := by
  unfold values
  rw [List.map_eq_nil_iff, List.filter_eq_nil_iff, List.any_eq_false]

theorem values_defaults : values name ((route.defaultHeaders.filter fun header =>
      !headers.any fun sent => eqIgnoreAsciiCase sent.1 header.1.toList).map fun header =>
        (header.1.toList, header.2.toList)) =
    if values name headers = [] then values name (defaults route) else [] := by
  have unsent : ∀ header : String × String, eqIgnoreAsciiCase header.1.toList name = true →
      (headers.any fun sent => eqIgnoreAsciiCase sent.1 header.1.toList) =
        headers.any fun sent => eqIgnoreAsciiCase sent.1 name := by
    intro header same
    rw [eqIgnoreAsciiCase, decide_eq_true_eq] at same
    simp only [eqIgnoreAsciiCase, same]
  unfold values defaults
  rw [List.filter_map, List.filter_map, List.filter_filter]
  split
  · rename_i none
    refine congrArg _ (congrArg _ (List.filter_congr ?_))
    intro header _
    cases same : eqIgnoreAsciiCase header.1.toList name with
    | false => simp [same]
    | true => simp [same, unsent header same, values_eq_nil_iff.mp none]
  · rename_i some
    have found : (headers.any fun header => eqIgnoreAsciiCase header.1 name) = true := by
      rw [← Bool.not_eq_false]
      exact mt values_eq_nil_iff.mpr some
    rw [List.map_eq_nil_iff, List.map_eq_nil_iff, List.filter_eq_nil_iff]
    intro header _
    cases same : eqIgnoreAsciiCase header.1.toList name with
    | false => simp [same]
    | true => simp [same, unsent header same, found]

/-- Of the names that authenticate or name the host, the backend sees the credential of the route and nothing else. Of
another name it sees what the caller sent, or else the default of the route. -/
theorem values_backendHeaders (profiled : route.Profiled) : values name (backendHeaders route headers) =
    if isStripped name then (if eqIgnoreAsciiCase (credential route).1 name then [(credential route).2] else [])
    else if values name headers = [] then values name (defaults route) else values name headers := by
  unfold backendHeaders
  rw [values_append, values_cons, values_kept, values_defaults]
  cases stripped : isStripped name with
  | true =>
    have apart : values name (defaults route) = [] := by
      rw [values_eq_nil_iff, List.any_eq_false]
      intro header member same
      have kept := defaults_kept profiled header member
      rw [isStripped_congr same, stripped] at kept
      cases kept
    simp [apart]
  | false =>
    have other : eqIgnoreAsciiCase (credential route).1 name = false := by
      rw [← Bool.not_eq_true]
      intro same
      have own := credential_stripped profiled
      rw [isStripped_congr same, stripped] at own
      cases own
    by_cases none : values name headers = []
    · simp [other, none]
    · simp [other, none]

theorem values_sanitized : values name (sanitizeInferenceRequestHeaders headers) =
    if shouldStripRequestHeader name then [] else values name headers := by
  have congr : ∀ header : List Char × List Char, eqIgnoreAsciiCase header.1 name = true →
      shouldStripRequestHeader header.1 = shouldStripRequestHeader name := by
    intro header same
    rw [eqIgnoreAsciiCase, decide_eq_true_eq] at same
    simp only [shouldStripRequestHeader, same]
  unfold values sanitizeInferenceRequestHeaders
  rw [List.filter_filter]
  split
  · rename_i stripped
    rw [List.map_eq_nil_iff, List.filter_eq_nil_iff]
    intro header _
    cases same : eqIgnoreAsciiCase header.1 name with
    | false => simp
    | true => simp [congr header same, stripped]
  · rename_i kept
    refine congrArg _ (List.filter_congr ?_)
    intro header _
    cases same : eqIgnoreAsciiCase header.1 name with
    | false => simp
    | true => simp [congr header same, kept]

theorem shouldStrip_of_isStripped (stripped : isStripped name = true) : shouldStripRequestHeader name = true := by
  unfold isStripped stripHeaders at stripped
  unfold shouldStripRequestHeader
  simp only [List.any_cons, List.any_nil, Bool.or_false, Bool.or_eq_true, decide_eq_true_eq, beq_iff_eq] at stripped ⊢
  tauto

theorem defaults_passed (profiled : route.Profiled) (stripped : shouldStripRequestHeader name = true) :
    values name (defaults route) = [] := by
  rw [values_eq_nil_iff, List.any_eq_false]
  intro header member same
  rw [eqIgnoreAsciiCase, decide_eq_true_eq] at same
  have own : shouldStripRequestHeader header.1 = true := by
    rw [← stripped]
    simp only [shouldStripRequestHeader, same]
  obtain ⟨providerType, call⟩ := profiled
  unfold defaults at member
  rcases authForProviderType_cases providerType with plain | anthropic
  · rw [call, Prod.mk.injEq] at plain
    rw [plain.2] at member
    cases member
  · rw [call, Prod.mk.injEq] at anthropic
    rw [anthropic.2, List.map_singleton, List.mem_singleton] at member
    rw [member] at own
    have passed : shouldStripRequestHeader "anthropic-version".toList = false := by decide
    rw [passed] at own
    cases own

end Headers

/-- An object with the model of the route in it, and any other document as it is. -/
structure Remodelled (route : ResolvedRoute) (json written : Json) : Prop where
  model : json.asObject.isSome = true → written.get "model" = some (.string route.model)
  others : ∀ key, key ≠ "model" → written.get key = json.get key
  whole : json.asObject = none → written = json

theorem remodelled_insert (route : ResolvedRoute) (json : Json) :
    Remodelled route json (json.insert "model" (.string route.model)) := by
  refine ⟨?_, fun key differs => Json.get_insert_of_ne differs, ?_⟩
  · intro isObject
    obtain ⟨fields, same⟩ := Option.isSome_iff_exists.mp isObject
    exact Json.get_insert_self same
  · intro other
    cases json with
    | object fields => cases other
    | _ => rfl

section Intercepted

variable {codec} {client} {patterns : List InferenceApiPattern} {routes : List ResolvedRoute}
  {request : ParsedHttpRequest} {sent : BackendRequest}

theorem sent_of_proxied {call : RouterCall}
    (left : (proxyWithCandidatesStreaming codec client routes call).sent = some sent) :
    ∃ route, candidate (String.ofList call.protocol) routes = some route ∧ isMockRoute route = false ∧
      buildRequest codec route call.method call.path call.headers call.body = .ok sent := by
  unfold proxyWithCandidatesStreaming at left
  split at left
  · cases left
  · rename_i route found
    split at left
    · cases left
    · rename_i real
      split at left
      · cases left
      · rename_i built
        cases left
        exact ⟨route, found, by simpa using real, built⟩

theorem call_of_routed {ctx : InferenceContext} {call : RouterCall}
    (called : (routeInferenceRequest ctx request).call = some call) :
    ∃ pattern,
      detectInferencePattern request.method (normalizeInferencePath request.path) ctx.patterns = some pattern ∧
      call = { protocol := pattern.protocol, method := request.method, path := normalizeInferencePath request.path,
               headers := sanitizeInferenceRequestHeaders request.headers, body := request.body } := by
  unfold routeInferenceRequest at called
  cases detected : detectInferencePattern request.method (normalizeInferencePath request.path) ctx.patterns with
  | none =>
    simp only [detected] at called
    cases called
  | some pattern =>
    refine ⟨pattern, rfl, ?_⟩
    simp only [detected] at called
    split at called
    · cases called
    · split at called
      · exact (Option.some.inj called).symm
      · exact (Option.some.inj called).symm

/-- It goes to the first route that speaks the protocol of a known request, with the credential of that route and none
of the caller's, and with its model. -/
def LeavesAs (codec : JsonCodec) (patterns : List InferenceApiPattern) (routes : List ResolvedRoute)
    (request : ParsedHttpRequest) (sent : BackendRequest) : Prop :=
  ∃ pattern route,
    detectInferencePattern request.method (normalizeInferencePath request.path) patterns = some pattern ∧
    candidate (String.ofList pattern.protocol) routes = some route ∧
    sent.method = request.method ∧
    sent.url = buildBackendUrl route.endpoint.toList (normalizeInferencePath request.path) ∧
    (∀ name, values name sent.headers =
      if shouldStripRequestHeader name then
        if eqIgnoreAsciiCase (credential route).1 name then [(credential route).2] else []
      else if values name request.headers = [] then values name (defaults route)
      else values name request.headers) ∧
    (∀ json, codec.parse request.body = some json →
      ∃ written, sent.body = codec.render written ∧ Remodelled route json written) ∧
    (codec.parse request.body = none → sent.body = request.body)

theorem leavesAs_of_sentFor {codec : JsonCodec} {client : BackendRequest → Except SendError BackendResponse}
    {patterns : List InferenceApiPattern} {routes : List ResolvedRoute} {request : ParsedHttpRequest}
    {sent : BackendRequest} (profiled : ∀ route ∈ routes, route.Profiled)
    (left : sentFor codec client patterns routes request = some sent) :
    LeavesAs codec patterns routes request sent := by
  unfold sentFor at left
  rw [Option.bind_eq_some_iff] at left
  obtain ⟨call, called, left⟩ := left
  obtain ⟨pattern, detected, rfl⟩ := call_of_routed called
  obtain ⟨route, found, _, built⟩ := sent_of_proxied left
  have known := profiled route (List.mem_of_find?_eq_some found)
  unfold buildRequest at built
  split at built
  · cases built
    refine ⟨pattern, route, detected, found, rfl, rfl, ?_, ?_, ?_⟩
    · intro name
      rw [values_backendHeaders known, values_sanitized]
      cases stripped : isStripped name with
      | true => rw [shouldStrip_of_isStripped stripped]; simp
      | false =>
        cases dropped : shouldStripRequestHeader name with
        | false => simp
        | true =>
          have other : eqIgnoreAsciiCase (credential route).1 name = false := by
            rw [← Bool.not_eq_true]
            intro same
            have own := credential_stripped known
            rw [isStripped_congr same, stripped] at own
            cases own
          simp [other, defaults_passed known dropped]
    · intro json parsed
      refine ⟨_, ?_, remodelled_insert route json⟩
      simp only [backendBody, parsed]
    · intro unparsed
      simp only [backendBody, unparsed]
  · cases built

/-- What leaves while an intercepted request is handled, over all routes that the profiles of providers give. -/
theorem intercepted_exact (codec : JsonCodec) (client : BackendRequest → Except SendError BackendResponse)
    (patterns : List InferenceApiPattern) (routes : List ResolvedRoute) (request : ParsedHttpRequest)
    (sent : BackendRequest) (profiled : ∀ route ∈ routes, route.Profiled)
    (left : sentFor codec client patterns routes request = some sent) :
    LeavesAs codec patterns routes request sent :=
  leavesAs_of_sentFor profiled left

/-- A codec for the empty object and for an object with the model only. -/
def smallCodec : JsonCodec where
  parse body := if body = utf8Encode "\x7b\x7d".toList then some (.object []) else none
  render json :=
    match json with
    | .object [("model", .string model)] => utf8Encode ("\x7b\"model\":\"" ++ model ++ "\"\x7d").toList
    | _ => utf8Encode "\x7b\x7d".toList

def anthropicRoute : ResolvedRoute where
  name := "inference.local"
  endpoint := "https://api.anthropic.com/v1"
  model := "claude"
  apiKey := "sk-1"
  protocols := anthropicProtocols
  auth := .custom "x-api-key"
  defaultHeaders := [("anthropic-version", "2023-06-01")]
  timeoutSecs := 60

theorem anthropicRoute_profiled : anthropicRoute.Profiled := ⟨"Anthropic", by decide⟩

def smuggledKey : ParsedHttpRequest where
  method := "POST".toList
  path := "/v1/messages".toList
  headers := [("Authorization".toList, "Bearer stolen".toList), ("X-Api-Key".toList, "stolen".toList)]
  body := utf8Encode "\x7b\x7d".toList

theorem smuggledKey_replaced : ∃ sent,
    sentFor smallCodec (fun _ => .error .timeout) defaultPatterns [anthropicRoute] smuggledKey = some sent ∧
      values "x-api-key".toList sent.headers = ["sk-1".toList] ∧ values "authorization".toList sent.headers = [] ∧
      values "anthropic-version".toList sent.headers = ["2023-06-01".toList] := by
  have leaves : (sentFor smallCodec (fun _ => .error .timeout) defaultPatterns [anthropicRoute]
      smuggledKey).isSome = true := by decide
  obtain ⟨sent, left⟩ := Option.isSome_iff_exists.mp leaves
  obtain ⟨pattern, route, _, found, _, _, seen, _⟩ := intercepted_exact smallCodec _ _ [anthropicRoute] smuggledKey sent
    (fun route member => List.mem_singleton.mp member ▸ anthropicRoute_profiled) left
  have own : route = anthropicRoute := List.mem_singleton.mp (List.mem_of_find?_eq_some found)
  subst own
  refine ⟨sent, left, ?_, ?_, ?_⟩
  · rw [seen]
    decide
  · rw [seen]
    decide
  · rw [seen]
    decide

end Intercepted

end OpenShell.Router
