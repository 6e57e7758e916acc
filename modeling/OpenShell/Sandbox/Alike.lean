import OpenShell.Sandbox.EndpointConfig

namespace OpenShell.Sandbox

/-! Documents that say the same in other words, and engines that run on them. -/

/-- A text that is empty in one document may be missing from the other. -/
def SameText (first second : Option String) : Prop := first.getD "" = second.getD ""

/-- A single glob may be given as a text or as an object. -/
def QueryMatcher.normal : QueryMatcher → QueryMatcher
  | .object (some glob) [] => if glob = "" then .object (some "") [] else .pattern glob
  | matcher => matcher

structure AllowData.Alike (first second : AllowData) : Prop where
  method : SameText first.method second.method
  path : SameText first.path second.path
  command : SameText first.command second.command
  query : List.Forall₂ (fun one two => one.1 = two.1 ∧ one.2.normal = two.2.normal) first.query second.query

structure EndpointData.Alike (first second : EndpointData) : Prop where
  host : SameText first.host second.host
  ports : first.ports = second.ports
  protocol : first.protocol = second.protocol
  tls : first.tls = second.tls
  enforcement : first.enforcement = second.enforcement
  rules : List.Forall₂ AllowData.Alike first.rules second.rules
  allowedIps : first.allowedIps = second.allowedIps

structure PolicyData.Alike (first second : PolicyData) : Prop where
  endpoints : List.Forall₂ EndpointData.Alike first.endpoints second.endpoints
  binaries : first.binaries = second.binaries

def PolicyObject.Alike (first second : PolicyObject) : Prop :=
  List.Forall₂ (fun one two => one.1 = two.1 ∧ one.2.Alike two.2) first.entries second.entries

/-- What is relied on of the built-in functions: only the empty text is like the empty text. -/
structure Builtins.Lawful (builtins : Builtins) : Prop where
  lower : ∀ text, builtins.lower text = builtins.lower "" → text = ""
  upper : ∀ text, builtins.upper text = builtins.upper "" → text = ""
  glob : ∀ separators text, builtins.globMatch "" separators text = true → text = ""

theorem any_related {α β : Type} {related : α → β → Prop} {first : List α} {second : List β}
    (pairs : List.Forall₂ related first second) {one : α → Bool} {two : β → Bool}
    (same : ∀ a b, related a b → one a = two b) : first.any one = second.any two := by
  induction pairs with
  | nil => rfl
  | cons here _ ih => rw [List.any_cons, List.any_cons, same _ _ here, ih]

theorem head_related {α β : Type} {related : α → β → Prop} {first : List α} {second : List β}
    (pairs : List.Forall₂ related first second) : Option.Rel related first.head? second.head? := by
  cases pairs with
  | nil => exact .none
  | cons here _ => exact .some here

section Engines

variable {builtins : Builtins} {first second : PolicyObject} {input : NetworkInput}

section Endpoints

variable {one two : EndpointData}

theorem hostExact_text (lawful : builtins.Lawful) (named : input.host ≠ "") (endpoint : EndpointData) :
    OpaEngine.hostExact ⟨builtins, first⟩ input endpoint = (!hasWildcard (endpoint.host.getD "") &&
      endpoint.host.getD "" != "" && builtins.lower (endpoint.host.getD "") == builtins.lower input.host) := by
  have apart : builtins.lower "" ≠ builtins.lower input.host := fun same => named (lawful.lower _ same.symm)
  cases given : endpoint.host with
  | none => simp [OpaEngine.hostExact, given]
  | some host =>
    by_cases empty : host = ""
    · subst empty
      simp [OpaEngine.hostExact, given, apart]
    · have filled : (host != "") = true := by simpa using empty
      simp [OpaEngine.hostExact, given, filled]

theorem hostGlob_text (endpoint : EndpointData) :
    OpaEngine.hostGlob ⟨builtins, first⟩ input endpoint = (hasWildcard (endpoint.host.getD "") &&
      builtins.globMatch (builtins.lower (endpoint.host.getD "")) ["."] (builtins.lower input.host)) := by
  have plain : hasWildcard "" = false := by decide
  cases given : endpoint.host with
  | none => simp [OpaEngine.hostGlob, given, plain]
  | some host => simp [OpaEngine.hostGlob, given]

theorem hostExact_alike (alike : one.Alike two) (lawful : builtins.Lawful) (named : input.host ≠ "") :
    OpaEngine.hostExact ⟨builtins, first⟩ input one = OpaEngine.hostExact ⟨builtins, second⟩ input two := by
  have host : one.host.getD "" = two.host.getD "" := alike.host
  rw [hostExact_text lawful named, hostExact_text lawful named, host]

theorem hostGlob_alike (alike : one.Alike two) :
    OpaEngine.hostGlob ⟨builtins, first⟩ input one = OpaEngine.hostGlob ⟨builtins, second⟩ input two := by
  have host : one.host.getD "" = two.host.getD "" := alike.host
  rw [hostGlob_text, hostGlob_text, host]

theorem hostless_alike (alike : one.Alike two) : OpaEngine.hostless one = OpaEngine.hostless two := by
  have host : one.host.getD "" = two.host.getD "" := alike.host
  unfold OpaEngine.hostless
  rw [host, alike.allowedIps]

theorem coversPort_alike (alike : one.Alike two) : OpaEngine.coversPort input one = OpaEngine.coversPort input two := by
  unfold OpaEngine.coversPort
  rw [alike.ports]

theorem endpointMatches_alike (alike : one.Alike two) (lawful : builtins.Lawful) (named : input.host ≠ "") :
    OpaEngine.endpointMatchesRequest ⟨builtins, first⟩ input one =
      OpaEngine.endpointMatchesRequest ⟨builtins, second⟩ input two := by
  unfold OpaEngine.endpointMatchesRequest
  rw [hostExact_alike alike lawful named, hostGlob_alike alike, hostless_alike alike, coversPort_alike alike]

theorem extended_alike (alike : one.Alike two) :
    OpaEngine.endpointHasExtendedConfig one = OpaEngine.endpointHasExtendedConfig two := by
  unfold OpaEngine.endpointHasExtendedConfig
  rw [alike.protocol, alike.allowedIps, alike.tls]

end Endpoints

section Requests

variable {request : OpaEngine.RequestData}

theorem queryValue_normal (engine : OpaEngine) (value : String) (matcher : QueryMatcher) :
    engine.queryValueMatches value matcher = engine.queryValueMatches value matcher.normal := by
  unfold QueryMatcher.normal
  split
  · rename_i glob
    split
    · rename_i empty
      rw [empty]
    · rename_i filled
      have given : (glob != "") = true := by simpa using filled
      simp [OpaEngine.queryValueMatches, given]
  · rfl

theorem queryKey_alike {key : String} {one two : QueryMatcher} (same : one.normal = two.normal) :
    OpaEngine.queryKeyMatches ⟨builtins, first⟩ request key one =
      OpaEngine.queryKeyMatches ⟨builtins, second⟩ request key two := by
  have values : ∀ value, OpaEngine.queryValueMatches ⟨builtins, first⟩ value one =
      OpaEngine.queryValueMatches ⟨builtins, second⟩ value two := by
    intro value
    rw [queryValue_normal ⟨builtins, first⟩ value one, queryValue_normal ⟨builtins, second⟩ value two, same]
    generalize two.normal = matcher
    cases matcher <;> rfl
  unfold OpaEngine.queryKeyMatches
  simp only [values]

theorem queryParams_alike {one two : AllowData} (alike : one.Alike two) :
    OpaEngine.queryParamsMatch ⟨builtins, first⟩ request one = OpaEngine.queryParamsMatch ⟨builtins, second⟩ request two := by
  unfold OpaEngine.queryParamsMatch
  rw [any_related alike.query]
  rintro ⟨key, matcher⟩ ⟨other, counterpart⟩ ⟨rfl, same⟩
  rw [queryKey_alike same]

/-- A rule without a method or a path allows nothing that has one. -/
theorem requestAllowed_text (lawful : builtins.Lawful) (method : request.method ≠ "") (path : request.path ≠ "")
    (endpoint : EndpointData) :
    OpaEngine.requestAllowedForEndpoint ⟨builtins, first⟩ request endpoint = endpoint.rules.any fun allow =>
      OpaEngine.methodMatches ⟨builtins, first⟩ request.method (allow.method.getD "") &&
        OpaEngine.pathMatches ⟨builtins, first⟩ request.path (allow.path.getD "") &&
          OpaEngine.queryParamsMatch ⟨builtins, first⟩ request allow := by
  have noMethod : OpaEngine.methodMatches ⟨builtins, first⟩ request.method "" = false := by
    have apart : builtins.upper request.method ≠ builtins.upper "" := fun same => method (lawful.upper _ same)
    simp [OpaEngine.methodMatches, apart]
  have noPath : OpaEngine.pathMatches ⟨builtins, first⟩ request.path "" = false := by
    have apart : builtins.globMatch "" ["/"] request.path = false := by
      by_contra matched
      exact path (lawful.glob _ _ (by simpa using matched))
    simp [OpaEngine.pathMatches, apart]
  unfold OpaEngine.requestAllowedForEndpoint
  congr 1
  funext allow
  cases allow.method with
  | none => simp [noMethod]
  | some given =>
    cases allow.path with
    | none => simp [noPath]
    | some pattern => rfl

theorem requestAllowed_alike {one two : EndpointData} (alike : one.Alike two) (lawful : builtins.Lawful)
    (method : request.method ≠ "") (path : request.path ≠ "") :
    OpaEngine.requestAllowedForEndpoint ⟨builtins, first⟩ request one =
      OpaEngine.requestAllowedForEndpoint ⟨builtins, second⟩ request two := by
  rw [requestAllowed_text lawful method path, requestAllowed_text lawful method path]
  apply any_related alike.rules
  intro allow other same
  have methods : allow.method.getD "" = other.method.getD "" := same.method
  have paths : allow.path.getD "" = other.path.getD "" := same.path
  rw [methods, paths, queryParams_alike same]
  rfl

end Requests

section Policies

variable {one two : PolicyData}

theorem endpointAllowed_alike (alike : one.Alike two) (lawful : builtins.Lawful) (named : input.host ≠ "") :
    OpaEngine.endpointAllowed ⟨builtins, first⟩ input one = OpaEngine.endpointAllowed ⟨builtins, second⟩ input two := by
  unfold OpaEngine.endpointAllowed
  rw [any_related alike.endpoints fun _ _ same => by rw [hostExact_alike same lawful named, coversPort_alike same],
    any_related alike.endpoints fun _ _ same => by rw [hostGlob_alike same, coversPort_alike same],
    any_related alike.endpoints fun _ _ same => by rw [hostless_alike same, coversPort_alike same]]

theorem binaryAllowed_alike (alike : one.Alike two) :
    OpaEngine.binaryAllowed ⟨builtins, first⟩ input one = OpaEngine.binaryAllowed ⟨builtins, second⟩ input two := by
  unfold OpaEngine.binaryAllowed
  rw [alike.binaries]

theorem policyMatches_alike (alike : one.Alike two) (lawful : builtins.Lawful) (named : input.host ≠ "") :
    OpaEngine.policyMatches ⟨builtins, first⟩ input one = OpaEngine.policyMatches ⟨builtins, second⟩ input two := by
  unfold OpaEngine.policyMatches
  rw [endpointAllowed_alike alike lawful named, binaryAllowed_alike alike]

end Policies

/-- The same decision, whatever the reason of a denial. -/
def NetworkAction.Alike : NetworkAction → NetworkAction → Prop
  | .allow first, .allow second => first = second
  | .deny _, .deny _ => True
  | .allow _, .deny _ | .deny _, .allow _ => False

/-- What two engines that agree tell of every named destination. Where there are no policies, they may give different
reasons for that. -/
structure EnginesAgree (one two : OpaEngine) : Prop where
  allowNetwork : ∀ input : NetworkInput, input.host ≠ "" →
    one.networkPolicyForRequest input = two.networkPolicyForRequest input
  networkAction : ∀ input : NetworkInput, input.host ≠ "" →
    (one.evaluateNetworkAction input).Alike (two.evaluateNetworkAction input)
  denyReason : one.networkPolicies.entries ≠ [] → ∀ input : NetworkInput, input.host ≠ "" →
    one.denyReason input = two.denyReason input
  allowRequest : ∀ (input : NetworkInput) (request : OpaEngine.RequestData), input.host ≠ "" → request.method ≠ "" →
    request.path ≠ "" → one.allowRequest request input = two.allowRequest request input
  endpointConfig : ∀ input : NetworkInput, input.host ≠ "" →
    Option.Rel EndpointData.Alike (one.queryEndpointConfig input) (two.queryEndpointConfig input)

theorem filter_alike (alike : first.Alike second) {keep other : PolicyData → Bool}
    (same : ∀ one two, one.Alike two → keep one = other two) :
    List.Forall₂ (fun one two => one.1 = two.1 ∧ one.2.Alike two.2)
      (first.entries.filter fun entry => keep entry.2) (second.entries.filter fun entry => other entry.2) := by
  refine List.rel_filter ?_ alike
  intro one two counterpart
  beta_reduce
  rw [same _ _ counterpart.2]

theorem names_alike {text : String × PolicyData → String} (named : ∀ one two, one.1 = two.1 → text one = text two)
    (alike : first.Alike second) {keep other : PolicyData → Bool}
    (same : ∀ one two, one.Alike two → keep one = other two) :
    (first.entries.filter fun entry => keep entry.2).map text =
      (second.entries.filter fun entry => other entry.2).map text := by
  have pairs := filter_alike alike same
  generalize (first.entries.filter fun entry => keep entry.2) = kept at pairs ⊢
  generalize (second.entries.filter fun entry => other entry.2) = others at pairs ⊢
  induction pairs with
  | nil => rfl
  | cons here _ ih => rw [List.map_cons, List.map_cons, named _ _ here.1, ih]

theorem networkPolicy_alike (alike : first.Alike second) (lawful : builtins.Lawful) (named : input.host ≠ "") :
    OpaEngine.networkPolicyForRequest ⟨builtins, first⟩ input =
      OpaEngine.networkPolicyForRequest ⟨builtins, second⟩ input := by
  unfold OpaEngine.networkPolicyForRequest
  apply any_related alike
  intro one two same
  exact policyMatches_alike same.2 lawful named

theorem matchedPolicy_alike (alike : first.Alike second) (lawful : builtins.Lawful) (named : input.host ≠ "") :
    OpaEngine.matchedNetworkPolicy ⟨builtins, first⟩ input = OpaEngine.matchedNetworkPolicy ⟨builtins, second⟩ input := by
  unfold OpaEngine.matchedNetworkPolicy OpaEngine.matchingPolicyNames
  exact congrArg _ (names_alike (fun _ _ same => same) alike fun _ _ same => policyMatches_alike same lawful named)

theorem empty_of_listed {policies : PolicyObject} (listed : policies.entries ≠ []) : policies.empty = false :=
  Bool.eq_false_iff.mpr fun empty => listed (policies.none_listed empty)

theorem denyReason_alike (alike : first.Alike second) (lawful : builtins.Lawful) (listed : first.entries ≠ [])
    (named : input.host ≠ "") :
    OpaEngine.denyReason ⟨builtins, first⟩ input = OpaEngine.denyReason ⟨builtins, second⟩ input := by
  have endpoints : OpaEngine.endpointMisses ⟨builtins, first⟩ input = OpaEngine.endpointMisses ⟨builtins, second⟩ input := by
    have missed : ∀ one two : PolicyData, one.Alike two → (!OpaEngine.endpointAllowed ⟨builtins, first⟩ input one) =
        !OpaEngine.endpointAllowed ⟨builtins, second⟩ input two := by
      intro one two same
      rw [endpointAllowed_alike same lawful named]
    exact names_alike (fun _ _ same => by rw [same]) alike missed
  have binaries : OpaEngine.binaryMisses ⟨builtins, first⟩ input = OpaEngine.binaryMisses ⟨builtins, second⟩ input := by
    have missed : ∀ one two : PolicyData, one.Alike two →
        (OpaEngine.endpointAllowed ⟨builtins, first⟩ input one && !OpaEngine.binaryAllowed ⟨builtins, first⟩ input one) =
          (OpaEngine.endpointAllowed ⟨builtins, second⟩ input two &&
            !OpaEngine.binaryAllowed ⟨builtins, second⟩ input two) := by
      intro one two same
      rw [endpointAllowed_alike same lawful named, binaryAllowed_alike same]
    exact names_alike (fun _ _ same => by rw [same]) alike missed
  have others : second.entries ≠ [] := by
    have counted : first.entries.length = second.entries.length := alike.length_eq
    rw [← List.length_pos_iff_ne_nil, ← counted]
    exact List.length_pos_iff_ne_nil.mpr listed
  unfold OpaEngine.denyReason
  rw [networkPolicy_alike alike lawful named, endpoints, binaries, empty_of_listed listed, empty_of_listed others]

theorem configs_alike (alike : first.Alike second) (lawful : builtins.Lawful) (named : input.host ≠ "") :
    List.Forall₂ EndpointData.Alike (OpaEngine.matchingEndpointConfigs ⟨builtins, first⟩ input)
      (OpaEngine.matchingEndpointConfigs ⟨builtins, second⟩ input) := by
  rw [matchingEndpointConfigs_eq, matchingEndpointConfigs_eq]
  refine List.rel_flatMap (filter_alike alike fun _ _ same => policyMatches_alike same lawful named) ?_
  intro one two same
  refine List.rel_filter ?_ same.2.endpoints
  intro endpoint other counterpart
  beta_reduce
  rw [endpointMatches_alike counterpart lawful named, extended_alike counterpart]

theorem enginesAgree_of_alike (alike : first.Alike second) (lawful : builtins.Lawful) :
    EnginesAgree ⟨builtins, first⟩ ⟨builtins, second⟩ := by
  constructor
  · intro input named
    exact networkPolicy_alike alike lawful named
  · intro input named
    unfold OpaEngine.evaluateNetworkAction
    rw [networkPolicy_alike alike lawful named, matchedPolicy_alike alike lawful named]
    split
    · rfl
    · trivial
  · intro listed input named
    exact denyReason_alike alike lawful listed named
  · intro input request named method path
    unfold OpaEngine.allowRequest
    apply any_related alike
    intro one two same
    rw [policyMatches_alike same.2 lawful named]
    congr 1
    apply any_related same.2.endpoints
    intro endpoint other counterpart
    rw [endpointMatches_alike counterpart lawful named, requestAllowed_alike counterpart lawful method path]
  · intro input named
    exact head_related (configs_alike alike lawful named)

end Engines

end OpenShell.Sandbox
