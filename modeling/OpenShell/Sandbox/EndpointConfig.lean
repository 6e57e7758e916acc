import OpenShell.Sandbox.Engine

namespace OpenShell.Sandbox

inductive L7Protocol where
  | rest | sql
deriving DecidableEq

def L7Protocol.parse (text : String) : Option L7Protocol :=
  if text.toLower = "rest" then some .rest
  else if text.toLower = "sql" then some .sql
  else none

inductive TlsMode where
  | auto | skip
deriving DecidableEq

inductive EnforcementMode where
  | audit | enforce
deriving DecidableEq

structure L7EndpointConfig where
  protocol : L7Protocol
  tls : TlsMode
  enforcement : EnforcementMode
deriving DecidableEq

/-- `get_object_str`: an empty text counts as missing. -/
def nonEmpty (field : Option String) : Option String := field.filter fun text => !text.isEmpty

def parseTlsMode (endpoint : EndpointData) : TlsMode :=
  if nonEmpty endpoint.tls = some "skip" then .skip else .auto

def parseL7Config (endpoint : EndpointData) : Option L7EndpointConfig := do
  let text ← nonEmpty endpoint.protocol
  let protocol ← L7Protocol.parse text
  pure
    { protocol := protocol
      tls := if nonEmpty endpoint.tls = some "skip" then .skip else .auto
      enforcement := if nonEmpty endpoint.enforcement = some "enforce" then .enforce else .audit }

structure ConnectDecision where
  action : NetworkAction
  binary : Option String := none
  ancestors : List String := []
  cmdlinePaths : List String := []

def ConnectDecision.hasPolicy (decision : ConnectDecision) : Bool :=
  match decision.action with
  | .allow matchedPolicy => matchedPolicy.isSome
  | .deny _ => false

def ConnectDecision.input (decision : ConnectDecision) (host : String) (port : UInt16) : NetworkInput :=
  { host := host, port := port, binaryPath := decision.binary.getD "", ancestors := decision.ancestors,
    cmdlinePaths := decision.cmdlinePaths }

/-- The end of `evaluate_opa_tcp`: the identity has been resolved and the policy is asked. -/
def decideConnect (engine : OpaEngine) (input : NetworkInput) : ConnectDecision :=
  { action := engine.evaluateNetworkAction input, binary := some input.binaryPath,
    ancestors := input.ancestors, cmdlinePaths := input.cmdlinePaths }

def queryL7Config (engine : OpaEngine) (decision : ConnectDecision) (host : String) (port : UInt16) :
    Option L7EndpointConfig :=
  if decision.hasPolicy then
    match engine.queryEndpointConfig (decision.input host port) with
    | some endpoint => parseL7Config endpoint
    | none => none
  else none

def queryTlsMode (engine : OpaEngine) (decision : ConnectDecision) (host : String) (port : UInt16) :
    TlsMode :=
  if decision.hasPolicy then
    match engine.queryEndpointConfig (decision.input host port) with
    | some endpoint => parseTlsMode endpoint
    | none => .auto
  else .auto

/-! Which endpoint answers. -/

def EndpointData.Enforced (endpoint : EndpointData) : Prop :=
  ∃ config, parseL7Config endpoint = some config ∧ config.protocol = .rest ∧ config.enforcement = .enforce

/-- Some policy that matches the connection has a matching endpoint that asks for enforcement. -/
def AsksEnforcement (engine : OpaEngine) (input : NetworkInput) : Prop :=
  ∃ entry ∈ engine.networkPolicies.entries, engine.policyMatches input entry.2 = true ∧
    ∃ endpoint ∈ entry.2.endpoints, engine.endpointMatchesRequest input endpoint = true ∧ endpoint.Enforced

/-- The proxy takes the connection for an inspected one: REST, enforced and not opted out of TLS. -/
def Inspected (engine : OpaEngine) (input : NetworkInput) : Prop :=
  (∃ config, queryL7Config engine (decideConnect engine input) input.host input.port = some config ∧
      config.protocol = .rest ∧ config.enforcement = .enforce) ∧
    queryTlsMode engine (decideConnect engine input) input.host input.port ≠ .skip

def OpaEngine.configures (engine : OpaEngine) (input : NetworkInput) (endpoint : EndpointData) : Bool :=
  engine.endpointMatchesRequest input endpoint && OpaEngine.endpointHasExtendedConfig endpoint

/-- The first configuring endpoint of the first matching policy, by name, that has one. -/
structure Deciding (engine : OpaEngine) (input : NetworkInput) (name : String) (policy : PolicyData)
    (endpoint : EndpointData) : Prop where
  stored : (name, policy) ∈ engine.networkPolicies.entries
  matched : engine.policyMatches input policy = true
  configures : engine.configures input endpoint = true
  first : ∃ before after, policy.endpoints = before ++ endpoint :: after ∧
    ∀ other ∈ before, engine.configures input other = false
  smallest : ∀ other ∈ engine.networkPolicies.entries, other.1 < name →
    engine.policyMatches input other.2 = true → ∀ found ∈ other.2.endpoints,
      engine.configures input found = false

section Deciding

variable {engine : OpaEngine} {input : NetworkInput}

theorem PolicyObject.get_of_mem {policies : PolicyObject} {name : String} {policy : PolicyData}
    (member : (name, policy) ∈ policies.entries) : policies.get name = some policy := by
  unfold PolicyObject.get
  have sorted := policies.sorted
  generalize policies.entries = entries at member sorted ⊢
  induction entries with
  | nil => cases member
  | cons entry rest ih =>
    obtain ⟨below, later⟩ := List.pairwise_cons.mp sorted
    rcases List.mem_cons.mp member with here | behind
    · rw [← here]
      simp
    · have differs : entry.1 ≠ name := ne_of_lt (below _ behind)
      rw [List.find?_cons_of_neg (by simpa using differs)]
      exact ih behind later

theorem policyEndpointConfigs_eq (policy : PolicyData) :
    engine.policyEndpointConfigs input policy = policy.endpoints.filter (engine.configures input) := rfl

theorem matchingEndpointConfigs_eq :
    engine.matchingEndpointConfigs input =
      (engine.networkPolicies.entries.filter fun entry => engine.policyMatches input entry.2).flatMap
        fun entry => engine.policyEndpointConfigs input entry.2 := by
  unfold OpaEngine.matchingEndpointConfigs OpaEngine.matchingPolicyNames
  rw [List.flatMap_map]
  apply List.flatMap_congr
  intro entry member
  have stored : engine.networkPolicies.get entry.1 = some entry.2 :=
    PolicyObject.get_of_mem (List.mem_filter.mp member).1
  rw [stored]
  rfl

theorem head_flatMap {α β : Type} {parts : α → List β} {items : List α} {value : β}
    (head : (items.flatMap parts).head? = some value) :
    ∃ before item after, items = before ++ item :: after ∧ (∀ other ∈ before, parts other = []) ∧
      (parts item).head? = some value := by
  induction items with
  | nil => cases head
  | cons item rest ih =>
    rw [List.flatMap_cons] at head
    cases part : parts item with
    | nil =>
      rw [part, List.nil_append] at head
      obtain ⟨before, found, after, split, empty, same⟩ := ih head
      refine ⟨item :: before, found, after, by rw [split]; rfl, ?_, same⟩
      intro other member
      rcases List.mem_cons.mp member with here | earlier
      · rw [here]
        exact part
      · exact empty other earlier
    | cons first others =>
      rw [part] at head
      exact ⟨[], item, rest, rfl, fun other member => absurd member List.not_mem_nil, by rw [part]; exact head⟩

theorem deciding_of_query {endpoint : EndpointData} (answered : engine.queryEndpointConfig input = some endpoint) :
    ∃ name policy, Deciding engine input name policy endpoint := by
  unfold OpaEngine.queryEndpointConfig at answered
  rw [matchingEndpointConfigs_eq] at answered
  obtain ⟨before, ⟨name, policy⟩, after, split, empty, head⟩ := head_flatMap answered
  have inFilter : (name, policy) ∈
      engine.networkPolicies.entries.filter fun entry => engine.policyMatches input entry.2 := by
    rw [split]
    simp
  obtain ⟨stored, matched⟩ := List.mem_filter.mp inFilter
  rw [policyEndpointConfigs_eq, List.head?_filter, List.find?_eq_some_iff_append] at head
  obtain ⟨configures, earlier, later, place, skipped⟩ := head
  refine ⟨name, policy, stored, matched, configures, ⟨earlier, later, place, ?_⟩, ?_⟩
  · intro other member
    simpa using skipped other member
  · intro other otherStored smaller otherMatched found foundIn
    have sorted := engine.networkPolicies.sorted.filter fun entry => engine.policyMatches input entry.2
    rw [split] at sorted
    have otherIn : other ∈ before ++ (name, policy) :: after := by
      rw [← split]
      exact List.mem_filter.mpr ⟨otherStored, otherMatched⟩
    -- A smaller name stands before the deciding policy, and what stands there has no such endpoint.
    have ahead : other ∈ before := by
      rcases List.mem_append.mp otherIn with here | behind
      · exact here
      · rcases List.mem_cons.mp behind with same | after
        · rw [same] at smaller
          exact absurd smaller (lt_irrefl _)
        · have above := (List.pairwise_cons.mp (List.pairwise_append.mp sorted).2.1).1 other after
          exact absurd (lt_trans smaller above) (lt_irrefl _)
    have nothing := empty other ahead
    rw [policyEndpointConfigs_eq, List.filter_eq_nil_iff] at nothing
    simpa using nothing found foundIn

theorem Deciding.mem_endpoints {name : String} {policy : PolicyData} {endpoint : EndpointData}
    (deciding : Deciding engine input name policy endpoint) : endpoint ∈ policy.endpoints := by
  obtain ⟨before, after, place, _⟩ := deciding.first
  rw [place]
  simp

theorem Deciding.found {name : String} {policy : PolicyData} {endpoint : EndpointData}
    (deciding : Deciding engine input name policy endpoint) :
    policy.endpoints.find? (engine.configures input) = some endpoint := by
  obtain ⟨before, after, place, skipped⟩ := deciding.first
  apply List.find?_eq_some_iff_append.mpr
  refine ⟨deciding.configures, before, after, place, ?_⟩
  intro other member
  rw [skipped other member]
  rfl

theorem Deciding.endpoint_unique {name other : String} {policy otherPolicy : PolicyData}
    {endpoint otherEndpoint : EndpointData} (deciding : Deciding engine input name policy endpoint)
    (also : Deciding engine input other otherPolicy otherEndpoint) : endpoint = otherEndpoint := by
  have sameName : name = other := by
    rcases lt_trichotomy name other with smaller | same | greater
    · have silent := also.smallest _ deciding.stored smaller deciding.matched endpoint deciding.mem_endpoints
      rw [deciding.configures] at silent
      cases silent
    · exact same
    · have silent := deciding.smallest _ also.stored greater also.matched otherEndpoint also.mem_endpoints
      rw [also.configures] at silent
      cases silent
  subst sameName
  have samePolicy : policy = otherPolicy := by
    have held := PolicyObject.get_of_mem deciding.stored
    rw [PolicyObject.get_of_mem also.stored] at held
    exact (Option.some.inj held).symm
  subst samePolicy
  have found := deciding.found
  rw [also.found] at found
  exact (Option.some.inj found).symm

theorem query_of_deciding {name : String} {policy : PolicyData} {endpoint : EndpointData}
    (deciding : Deciding engine input name policy endpoint) : engine.queryEndpointConfig input = some endpoint := by
  have listed : endpoint ∈ engine.matchingEndpointConfigs input := by
    rw [matchingEndpointConfigs_eq]
    apply List.mem_flatMap.mpr
    refine ⟨(name, policy), List.mem_filter.mpr ⟨deciding.stored, deciding.matched⟩, ?_⟩
    exact List.mem_filter.mpr ⟨deciding.mem_endpoints, deciding.configures⟩
  cases answered : engine.queryEndpointConfig input with
  | none =>
    rw [OpaEngine.queryEndpointConfig, List.head?_eq_none_iff] at answered
    rw [answered] at listed
    cases listed
  | some answer =>
    obtain ⟨decider, decidingPolicy, also⟩ := deciding_of_query answered
    rw [deciding.endpoint_unique also]

theorem query_of_asked (asked : AsksEnforcement engine input) :
    ∃ endpoint, engine.queryEndpointConfig input = some endpoint := by
  obtain ⟨entry, stored, matched, endpoint, endpointIn, matching, config, parsed, _⟩ := asked
  have extended : OpaEngine.endpointHasExtendedConfig endpoint = true := by
    unfold OpaEngine.endpointHasExtendedConfig
    cases given : endpoint.protocol with
    | some text => rfl
    | none =>
      simp [parseL7Config, nonEmpty, given] at parsed
  have listed : endpoint ∈ engine.matchingEndpointConfigs input := by
    rw [matchingEndpointConfigs_eq]
    apply List.mem_flatMap.mpr
    refine ⟨entry, List.mem_filter.mpr ⟨stored, matched⟩, ?_⟩
    exact List.mem_filter.mpr ⟨endpointIn, by rw [matching, extended]; rfl⟩
  unfold OpaEngine.queryEndpointConfig
  cases configs : engine.matchingEndpointConfigs input with
  | nil =>
    rw [configs] at listed
    cases listed
  | cons first rest => exact ⟨first, rfl⟩

theorem hasPolicy_of_matched {entry : String × PolicyData} (stored : entry ∈ engine.networkPolicies.entries)
    (matched : engine.policyMatches input entry.2 = true) : (decideConnect engine input).hasPolicy = true := by
  have allowed : engine.networkPolicyForRequest input = true := List.any_eq_true.mpr ⟨entry, stored, matched⟩
  have named : entry.1 ∈ engine.matchingPolicyNames input :=
    List.mem_map.mpr ⟨entry, List.mem_filter.mpr ⟨stored, matched⟩, rfl⟩
  have smallest : (engine.matchedNetworkPolicy input).isSome = true := List.isSome_min?_of_mem named
  simp only [ConnectDecision.hasPolicy, decideConnect, OpaEngine.evaluateNetworkAction, allowed, if_true,
    smallest]

/-- Both queries answer from the deciding endpoint, so the connection is inspected exactly when that
    endpoint asks for it. -/
theorem inspected_iff_deciding (asked : AsksEnforcement engine input) :
    ∃ name policy endpoint, Deciding engine input name policy endpoint ∧
      queryL7Config engine (decideConnect engine input) input.host input.port = parseL7Config endpoint ∧
      queryTlsMode engine (decideConnect engine input) input.host input.port = parseTlsMode endpoint ∧
      (Inspected engine input ↔ endpoint.Enforced ∧ parseTlsMode endpoint ≠ .skip) := by
  obtain ⟨endpoint, answered⟩ := query_of_asked asked
  obtain ⟨entry, stored, matched, _⟩ := asked
  obtain ⟨name, policy, deciding⟩ := deciding_of_query answered
  have hasPolicy := hasPolicy_of_matched stored matched
  have sameInput : (decideConnect engine input).input input.host input.port = input := rfl
  have config : queryL7Config engine (decideConnect engine input) input.host input.port =
      parseL7Config endpoint := by
    simp only [queryL7Config, hasPolicy, if_true, sameInput, answered]
  have tls : queryTlsMode engine (decideConnect engine input) input.host input.port =
      parseTlsMode endpoint := by
    simp only [queryTlsMode, hasPolicy, if_true, sameInput, answered]
  refine ⟨name, policy, endpoint, deciding, config, tls, ?_⟩
  unfold Inspected EndpointData.Enforced
  rw [config, tls]

end Deciding

section Example

def plainBuiltins : Builtins := ⟨String.toLower, String.toUpper, fun _ _ _ => false⟩

def enforcedEndpoint : EndpointData :=
  { host := some "api.example", ports := [443], protocol := some "rest", enforcement := some "enforce" }

def draftEndpoint : EndpointData :=
  { host := some "api.example", ports := [443], allowedIps := ["10.0.0.5"] }

def overlapping : OpaEngine :=
  { builtins := plainBuiltins,
    networkPolicies :=
      { entries := [("allow_api", ⟨[draftEndpoint], ["/usr/bin/curl"]⟩),
          ("rest_api", ⟨[enforcedEndpoint], ["/usr/bin/curl"]⟩)]
        sorted := by decide } }

def curlInput : NetworkInput := { host := "api.example", port := 443, binaryPath := "/usr/bin/curl" }

theorem overlapping_asks : AsksEnforcement overlapping curlInput := by
  refine ⟨("rest_api", ⟨[enforcedEndpoint], ["/usr/bin/curl"]⟩), by simp [overlapping], by decide +kernel,
    enforcedEndpoint, by simp, by decide +kernel, ⟨.rest, .auto, .enforce⟩, by decide +kernel, rfl, rfl⟩

theorem overlapping_downgraded : ¬ (AsksEnforcement overlapping curlInput → Inspected overlapping curlInput) := by
  intro claimed
  obtain ⟨⟨config, answered, _⟩, _⟩ := claimed overlapping_asks
  have silent : queryL7Config overlapping (decideConnect overlapping curlInput) "api.example" 443 = none := by
    decide +kernel
  rw [show curlInput.host = "api.example" from rfl, show curlInput.port = 443 from rfl, silent] at answered
  cases answered

theorem overlapping_deciding :
    ∃ name policy endpoint, Deciding overlapping curlInput name policy endpoint ∧
      queryL7Config overlapping (decideConnect overlapping curlInput) curlInput.host curlInput.port =
        parseL7Config endpoint ∧
      queryTlsMode overlapping (decideConnect overlapping curlInput) curlInput.host curlInput.port =
        parseTlsMode endpoint ∧
      (Inspected overlapping curlInput ↔ endpoint.Enforced ∧ parseTlsMode endpoint ≠ .skip) :=
  inspected_iff_deciding overlapping_asks

end Example

end OpenShell.Sandbox
