import OpenShell.Sandbox.Destinations

namespace OpenShell.Sandbox

open Text Net Streams

/-! What a policy that is added under a new name changes. -/

namespace PolicyObject

variable {policies : PolicyObject} {name : String}

def below (policies : PolicyObject) (name : String) : List (String × PolicyData) :=
  policies.entries.takeWhile fun entry => entry.1 < name

def above (policies : PolicyObject) (name : String) : List (String × PolicyData) :=
  policies.entries.dropWhile fun entry => entry.1 < name

theorem below_append_above (policies : PolicyObject) (name : String) :
    policies.below name ++ policies.above name = policies.entries := List.takeWhile_append_dropWhile

theorem lt_of_mem_below {entry : String × PolicyData} (member : entry ∈ policies.below name) : entry.1 < name := by
  simpa using List.mem_takeWhile_imp member

theorem lt_of_mem_above {entry : String × PolicyData} (fresh : ∀ held ∈ policies.entries, held.1 ≠ name)
    (member : entry ∈ policies.above name) : name < entry.1 := by
  have sorted : (policies.above name).Pairwise fun first second => first.1 < second.1 :=
    policies.sorted.sublist (List.dropWhile_sublist _)
  have stored : ∀ held ∈ policies.above name, held ∈ policies.entries :=
    fun held inside => (List.dropWhile_sublist _).subset inside
  cases rest : policies.above name with
  | nil =>
    rw [rest] at member
    cases member
  | cons first others =>
    rw [rest] at member sorted stored
    have notBelow : ¬ first.1 < name := by
      have head := List.head?_dropWhile_not (fun entry : String × PolicyData => entry.1 < name) policies.entries
      rw [show policies.entries.dropWhile (fun entry => entry.1 < name) = first :: others from rest] at head
      simpa using head
    have differs := fresh first (stored first List.mem_cons_self)
    have firstAbove : name < first.1 := lt_of_le_of_ne (le_of_not_gt notBelow) (Ne.symm differs)
    rcases List.mem_cons.mp member with here | behind
    · rw [here]
      exact firstAbove
    · exact lt_trans firstAbove ((List.pairwise_cons.mp sorted).1 entry behind)

/-- The policies with one more, whose name none of them has. -/
def add (policies : PolicyObject) (name : String) (policy : PolicyData)
    (fresh : ∀ held ∈ policies.entries, held.1 ≠ name) : PolicyObject where
  entries := policies.below name ++ (name, policy) :: policies.above name
  sorted := by
    have sorted := policies.sorted
    rw [← below_append_above policies name] at sorted
    obtain ⟨first, second, between⟩ := List.pairwise_append.mp sorted
    apply List.pairwise_append.mpr
    refine ⟨first, List.pairwise_cons.mpr ⟨fun held member => lt_of_mem_above fresh member, second⟩, ?_⟩
    intro held inBelow other member
    rcases List.mem_cons.mp member with here | behind
    · rw [here]
      exact lt_of_mem_below inBelow
    · exact between held inBelow other behind

theorem mem_below {entry : String × PolicyData} (fresh : ∀ held ∈ policies.entries, held.1 ≠ name)
    (stored : entry ∈ policies.entries) (smaller : entry.1 < name) : entry ∈ policies.below name := by
  rw [← below_append_above policies name] at stored
  rcases List.mem_append.mp stored with here | behind
  · exact here
  · exact absurd (lt_trans smaller (lt_of_mem_above fresh behind)) (lt_irrefl _)

theorem mem_add {policy : PolicyData} (fresh : ∀ held ∈ policies.entries, held.1 ≠ name)
    {entry : String × PolicyData} :
    entry ∈ (policies.add name policy fresh).entries ↔ entry = (name, policy) ∨ entry ∈ policies.entries := by
  rw [← below_append_above policies name]
  simp only [add, List.mem_append, List.mem_cons]
  tauto

end PolicyObject

def OpaEngine.adding (engine : OpaEngine) (name : String) (policy : PolicyData)
    (fresh : ∀ held ∈ engine.networkPolicies.entries, held.1 ≠ name) : OpaEngine :=
  { engine with networkPolicies := engine.networkPolicies.add name policy fresh }

section Engine

variable {engine : OpaEngine} {input : NetworkInput} {name : String} {policy : PolicyData}
  {fresh : ∀ held ∈ engine.networkPolicies.entries, held.1 ≠ name}

theorem mem_adding {entry : String × PolicyData} :
    entry ∈ (engine.adding name policy fresh).networkPolicies.entries ↔
      entry = (name, policy) ∨ entry ∈ engine.networkPolicies.entries :=
  PolicyObject.mem_add fresh

theorem policyForRequest_adding (allowed : engine.networkPolicyForRequest input = true) :
    (engine.adding name policy fresh).networkPolicyForRequest input = true := by
  unfold OpaEngine.networkPolicyForRequest at allowed ⊢
  obtain ⟨entry, stored, matched⟩ := List.any_eq_true.mp allowed
  exact List.any_eq_true.mpr ⟨entry, mem_adding.mpr (.inr stored), matched⟩

theorem allowRequest_adding {request : OpaEngine.RequestData} (allowed : engine.allowRequest request input = true) :
    (engine.adding name policy fresh).allowRequest request input = true := by
  unfold OpaEngine.allowRequest at allowed ⊢
  obtain ⟨entry, stored, permitted⟩ := List.any_eq_true.mp allowed
  exact List.any_eq_true.mpr ⟨entry, mem_adding.mpr (.inr stored), permitted⟩

/-- What the policies of a list contribute to the configurations of a connection. -/
def OpaEngine.configsOf (engine : OpaEngine) (input : NetworkInput) (entries : List (String × PolicyData)) :
    List EndpointData :=
  (entries.filter fun entry => engine.policyMatches input entry.2).flatMap fun entry =>
    engine.policyEndpointConfigs input entry.2

theorem configsOf_append (first second : List (String × PolicyData)) :
    engine.configsOf input (first ++ second) = engine.configsOf input first ++ engine.configsOf input second := by
  simp only [OpaEngine.configsOf, List.filter_append, List.flatMap_append]

theorem configs_eq (name : String) : engine.matchingEndpointConfigs input =
    engine.configsOf input (engine.networkPolicies.below name) ++
      engine.configsOf input (engine.networkPolicies.above name) := by
  rw [← configsOf_append, PolicyObject.below_append_above]
  exact matchingEndpointConfigs_eq

theorem configs_adding : (engine.adding name policy fresh).matchingEndpointConfigs input =
    engine.configsOf input (engine.networkPolicies.below name) ++
      (engine.configsOf input [(name, policy)] ++ engine.configsOf input (engine.networkPolicies.above name)) := by
  rw [← configsOf_append, ← configsOf_append]
  exact matchingEndpointConfigs_eq

theorem mem_configsOf {entries : List (String × PolicyData)} {endpoint : EndpointData} :
    endpoint ∈ engine.configsOf input entries ↔ ∃ entry ∈ entries, engine.policyMatches input entry.2 = true ∧
      endpoint ∈ entry.2.endpoints ∧ engine.configures input endpoint = true := by
  simp only [OpaEngine.configsOf, List.mem_flatMap, List.mem_filter, policyEndpointConfigs_eq, and_assoc]

/-- The added policy decides if none with a smaller name does and it has a configuration to give. -/
theorem deciding_adding (silent : engine.configsOf input (engine.networkPolicies.below name) = [])
    (speaks : engine.configsOf input [(name, policy)] ≠ []) :
    ∃ endpoint, Deciding (engine.adding name policy fresh) input name policy endpoint := by
  obtain ⟨given, givenIn⟩ := List.exists_mem_of_ne_nil _ speaks
  obtain ⟨_, sameEntry, matched, inEndpoints, configures⟩ := mem_configsOf.mp givenIn
  rw [List.mem_singleton] at sameEntry
  subst sameEntry
  have answers : (engine.adding name policy fresh).queryEndpointConfig input ≠ none := by
    unfold OpaEngine.queryEndpointConfig
    rw [configs_adding, silent, List.nil_append, ne_eq, List.head?_eq_none_iff, List.append_eq_nil_iff]
    exact fun empty => speaks empty.1
  obtain ⟨endpoint, answered⟩ := Option.ne_none_iff_exists'.mp answers
  obtain ⟨decider, decidingPolicy, deciding⟩ := deciding_of_query answered
  have own : decider = name := by
    rcases lt_trichotomy decider name with smaller | same | greater
    · have stored : (decider, decidingPolicy) ∈ engine.networkPolicies.below name := by
        rcases mem_adding.mp deciding.stored with same | held
        · cases same
          exact absurd smaller (lt_irrefl _)
        · exact PolicyObject.mem_below fresh held smaller
      have contributes : endpoint ∈ engine.configsOf input (engine.networkPolicies.below name) :=
        mem_configsOf.mpr ⟨_, stored, deciding.matched, deciding.mem_endpoints, deciding.configures⟩
      rw [silent] at contributes
      cases contributes
    · exact same
    · have nothing := deciding.smallest _ (mem_adding.mpr (.inl rfl)) greater matched given inEndpoints
      have something : (engine.adding name policy fresh).configures input given = true := configures
      rw [something] at nothing
      cases nothing
  subst own
  rcases mem_adding.mp deciding.stored with same | held
  · cases same
    exact ⟨endpoint, deciding⟩
  · exact absurd rfl (fresh _ held)

/-- The added policy decides, or the answer is the one without it. -/
theorem queryEndpointConfig_adding :
    (∃ endpoint, Deciding (engine.adding name policy fresh) input name policy endpoint) ∨
      (engine.adding name policy fresh).queryEndpointConfig input = engine.queryEndpointConfig input := by
  unfold OpaEngine.queryEndpointConfig
  rw [configs_adding, configs_eq name]
  by_cases silent : engine.configsOf input (engine.networkPolicies.below name) = []
  · by_cases speaks : engine.configsOf input [(name, policy)] = []
    · right
      rw [speaks, List.nil_append]
    · left
      exact deciding_adding silent speaks
  · right
    rw [List.head?_append_of_ne_nil _ silent, List.head?_append_of_ne_nil _ silent]

end Engine

namespace Proxy

variable {proxy : Proxy} {destination : Destination} {name : String} {policy : PolicyData}
  {fresh : ∀ held ∈ proxy.engine.networkPolicies.entries, held.1 ≠ name}

/-- The proxy of the same sandbox, after the policy has been added. -/
def adding (proxy : Proxy) (name : String) (policy : PolicyData)
    (fresh : ∀ held ∈ proxy.engine.networkPolicies.entries, held.1 ≠ name) : Proxy :=
  { proxy with engine := proxy.engine.adding name policy fresh }

theorem allows_iff : proxy.Allows destination ↔
    (∃ peer, proxy.identity = .ok peer) ∧ proxy.engine.networkPolicyForRequest (proxy.input destination) = true := by
  unfold Allows input decision evaluateOpaTcp
  cases proxy.identity with
  | error error => simp
  | ok peer =>
    simp only [decideConnect, ConnectDecision.input, OpaEngine.evaluateNetworkAction, Option.getD_some,
      Except.ok.injEq, exists_eq', true_and]
    split <;> simp_all

theorem input_adding : (proxy.adding name policy fresh).input destination = proxy.input destination := by
  unfold input decision evaluateOpaTcp adding
  cases proxy.identity <;> rfl

theorem allows_adding (allowed : proxy.Allows destination) : (proxy.adding name policy fresh).Allows destination := by
  obtain ⟨peer, permitted⟩ := allows_iff.mp allowed
  apply allows_iff.mpr
  rw [input_adding]
  exact ⟨peer, policyForRequest_adding permitted⟩

theorem allowedIps_eq (allowed : proxy.Allows destination) : proxy.allowedIps destination =
    ((proxy.engine.queryEndpointConfig (proxy.input destination)).map (·.allowedIps)).getD [] := by
  have hasPolicy : (proxy.decision destination.host destination.port).hasPolicy = true := by
    obtain ⟨⟨peer, known⟩, permitted⟩ := allows_iff.mp allowed
    unfold input at permitted
    unfold decision evaluateOpaTcp at permitted ⊢
    rw [known] at permitted ⊢
    obtain ⟨entry, stored, matched⟩ := List.any_eq_true.mp permitted
    exact hasPolicy_of_matched stored matched
  unfold allowedIps
  rw [queryAllowedIps_eq hasPolicy]
  rfl

theorem resolveUpstream_adding
    (same : (proxy.adding name policy fresh).allowedIps destination = proxy.allowedIps destination) :
    (proxy.adding name policy fresh).resolveUpstream
        ((proxy.adding name policy fresh).decision destination.host destination.port) destination.host destination.port =
      proxy.resolveUpstream (proxy.decision destination.host destination.port) destination.host destination.port := by
  unfold allowedIps at same
  unfold resolveUpstream Dialer.resolveUpstream Dialer.rawAllowedIps
  rw [same]
  rfl

/-- Connections and requests that were allowed stay so. The addresses are checked as before, unless the new policy
    decides: then its own list is the one they are checked against. -/
theorem adding_policy (fresh : ∀ held ∈ proxy.engine.networkPolicies.entries, held.1 ≠ name)
    (allowed : proxy.Allows destination) :
    (proxy.adding name policy fresh).Allows destination ∧
      (∀ request, proxy.engine.allowRequest request (proxy.input destination) = true →
        (proxy.adding name policy fresh).engine.allowRequest request
          ((proxy.adding name policy fresh).input destination) = true) ∧
      ((¬ ∃ endpoint, Deciding (proxy.adding name policy fresh).engine
            ((proxy.adding name policy fresh).input destination) name policy endpoint) →
        ∀ addrs, proxy.resolveUpstream (proxy.decision destination.host destination.port) destination.host
            destination.port = .ok addrs →
          (proxy.adding name policy fresh).resolveUpstream
            ((proxy.adding name policy fresh).decision destination.host destination.port) destination.host
            destination.port = .ok addrs) ∧
      ∀ endpoint, Deciding (proxy.adding name policy fresh).engine
          ((proxy.adding name policy fresh).input destination) name policy endpoint →
        (proxy.adding name policy fresh).allowedIps destination = endpoint.allowedIps := by
  have stillAllowed : (proxy.adding name policy fresh).Allows destination := allows_adding allowed
  have ips := allowedIps_eq stillAllowed
  rw [input_adding] at ips ⊢
  refine ⟨stillAllowed, fun request permitted => allowRequest_adding permitted, ?_, ?_⟩
  · intro other addrs passed
    rcases @queryEndpointConfig_adding proxy.engine (proxy.input destination) name policy fresh with decides | same
    · exact absurd decides other
    · have sameEndpoint : (proxy.adding name policy fresh).engine.queryEndpointConfig (proxy.input destination) =
          proxy.engine.queryEndpointConfig (proxy.input destination) := same
      rw [sameEndpoint, ← allowedIps_eq allowed] at ips
      rw [resolveUpstream_adding ips]
      exact passed
  · intro endpoint deciding
    rw [ips, query_of_deciding deciding]
    rfl

end Proxy

section Example

def apiProxy : Proxy := curlProxy (endpointPolicies "api.example" 443) publicIp

def apiDestination : Destination := ⟨"api.example".toList, 443⟩

def narrowPolicy : PolicyData := ⟨[draftEndpoint], ["/usr/bin/curl"]⟩

theorem apiProxy_fresh (name : String) (other : name ≠ "api") :
    ∀ held ∈ apiProxy.engine.networkPolicies.entries, held.1 ≠ name := by
  intro held member
  cases List.mem_singleton.mp member
  exact Ne.symm other

theorem apiProxy_decides :
    apiProxy.engine.networkPolicyForRequest (apiProxy.input apiDestination) = true ∧
      apiProxy.resolveUpstream (apiProxy.decision apiDestination.host apiDestination.port)
        apiDestination.host apiDestination.port = .ok [⟨publicIp, 443⟩] := by
  decide +kernel

theorem apiProxy_allows : apiProxy.Allows apiDestination :=
  Proxy.allows_iff.mpr ⟨⟨_, rfl⟩, apiProxy_decides.1⟩

theorem apiProxy_passes : apiProxy.resolveUpstream (apiProxy.decision apiDestination.host apiDestination.port)
    apiDestination.host apiDestination.port = .ok [⟨publicIp, 443⟩] :=
  apiProxy_decides.2

/-- A second policy for the same endpoint, of a smaller name, brings its own list of addresses. -/
theorem narrowPolicy_refuses :
    ¬ (apiProxy.Allows apiDestination →
      ∀ addrs, apiProxy.resolveUpstream (apiProxy.decision apiDestination.host apiDestination.port)
          apiDestination.host apiDestination.port = .ok addrs →
        (apiProxy.adding "allow_api" narrowPolicy (apiProxy_fresh "allow_api" (by decide))).resolveUpstream
          ((apiProxy.adding "allow_api" narrowPolicy (apiProxy_fresh "allow_api" (by decide))).decision
            apiDestination.host apiDestination.port) apiDestination.host apiDestination.port = .ok addrs) := by
  intro claimed
  have passes := claimed apiProxy_allows _ apiProxy_passes
  revert passes
  decide +kernel

theorem laterPolicy_passes :
    (apiProxy.adding "later" ⟨[], []⟩ (apiProxy_fresh "later" (by decide))).resolveUpstream
      ((apiProxy.adding "later" ⟨[], []⟩ (apiProxy_fresh "later" (by decide))).decision
        apiDestination.host apiDestination.port) apiDestination.host apiDestination.port = .ok [⟨publicIp, 443⟩] := by
  have kept := (@Proxy.adding_policy apiProxy apiDestination "later" ⟨[], []⟩ (apiProxy_fresh "later" (by decide))
    apiProxy_allows).2.2.1
  apply kept
  · rintro ⟨endpoint, deciding⟩
    cases deciding.mem_endpoints
  · exact apiProxy_passes

end Example

end OpenShell.Sandbox
