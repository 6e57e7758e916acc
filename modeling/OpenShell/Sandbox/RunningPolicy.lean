import OpenShell.Sandbox.LoadersAgree

namespace OpenShell.Sandbox

open OpenShell.Policy

/-! The engine of a sandbox that runs on a policy. -/

/-! The checks say where an error is, and find the same errors wherever that is. -/

section Locations

theorem errors_checkAny (loc : String) (matcher : Json) :
    (checkAny loc matcher).errors = [] ↔ (checkAny "" matcher).errors = [] := by
  unfold checkAny
  cases items "any" matcher with
  | none => simp [Findings.error]
  | some any =>
    simp only
    split
    · simp [Findings.error]
    · have warnings : ∀ loc, (Findings.collect ((any.filterMap Json.asStr).map (globWarning loc))).errors = [] := by
        intro loc
        apply errors_collect.mpr
        intro finding member
        obtain ⟨glob, _, rfl⟩ := List.mem_map.mp member
        exact errors_globWarning loc glob
      rw [errors_append, errors_append, warnings, warnings, List.append_nil, List.append_nil, errors_errorIf,
        errors_errorIf]

theorem errors_checkMatcher (loc : String) (matcher : Json) :
    (checkMatcher loc matcher).errors = [] ↔ (checkMatcher "" matcher).errors = [] := by
  cases matcher with
  | string glob =>
    unfold checkMatcher
    simp only [errors_globWarning]
  | object fields =>
    unfold checkMatcher checkMatcherObject
    simp only
    split
    · simp [Findings.error]
    · split
      · simp [Findings.error]
      · split
        · simp [Findings.error]
        · split
          · split
            · simp [Findings.error]
            · simp only [errors_globWarning]
          · exact errors_checkAny loc _
  | _ => simp [checkMatcher, Findings.error]

theorem errors_checkQuery_loc (loc : String) (rule : Json) :
    (checkQuery loc rule).errors = [] ↔ (checkQuery "" rule).errors = [] := by
  unfold checkQuery
  split
  · rfl
  · rw [errors_collect, errors_collect, List.forall_mem_map, List.forall_mem_map]
    apply forall₂_congr
    intro entry _
    rw [errors_checkMatcher, errors_checkMatcher ("" ++ "." ++ entry.1)]
  · simp [Findings.error]

theorem errors_checkRules_loc (loc : String) (rules : List Json) :
    (checkRules loc rules).errors = [] ↔ (checkRules "" rules).errors = [] := by
  unfold checkRules
  rw [errors_collect, errors_collect, List.forall_mem_map, List.forall_mem_map]
  apply forall₂_congr
  rintro ⟨rule, index⟩ _
  have method : ∀ loc, (checkMethod loc rule).errors = [] := by
    intro loc
    unfold checkMethod
    split
    · rfl
    · exact errors_warningIf _ _
  simp only [errors_append, method, List.nil_append]
  rw [errors_checkQuery_loc, errors_checkQuery_loc ("" ++ _ ++ _ ++ _)]

/-- Whether an endpoint passes does not depend on where it stands. -/
theorem errors_checkEndpoint_loc (loc : String) (ep : Json) :
    (checkEndpoint loc ep).errors = [] ↔ (checkEndpoint "" ep).errors = [] := by
  have last : ∀ asked : Prop, ∀ [Decidable asked],
      ((if asked then checkRules loc ((items "rules" ep).getD []) else {}).errors = [] ↔
        (if asked then checkRules "" ((items "rules" ep).getD []) else {}).errors = []) := by
    intro asked _
    split
    · exact errors_checkRules_loc loc _
    · rfl
  unfold checkEndpoint
  simp only [errors_append, List.append_eq_nil_iff, errors_errorIf, errors_warningIf, last, errors_checkHost loc]

end Locations

/-! What of a policy the rules of the engine read. -/

section Shown

def shownEndpoint (endpoint : NetworkEndpoint) : EndpointData := endpointData (expandAccess (protoEndpointJson endpoint))

def ruleData (rule : NetworkPolicyRule) : PolicyData where
  endpoints := rule.endpoints.map shownEndpoint
  binaries := rule.binaries.map (·.path)

variable (endpoint : NetworkEndpoint)

@[simp] theorem shownEndpoint_host : (shownEndpoint endpoint).host = some endpoint.host := by
  rw [shownEndpoint, endpointData_shown (protoEndpoint_shows endpoint)]

@[simp] theorem shownEndpoint_ports : (shownEndpoint endpoint).ports = (protoPorts endpoint).map UInt32.toNat := by
  rw [shownEndpoint, endpointData_shown (protoEndpoint_shows endpoint)]

@[simp] theorem shownEndpoint_protocol : (shownEndpoint endpoint).protocol = given endpoint.protocol := by
  rw [shownEndpoint, endpointData_shown (protoEndpoint_shows endpoint)]

@[simp] theorem shownEndpoint_tls : (shownEndpoint endpoint).tls = given endpoint.tls := by
  rw [shownEndpoint, endpointData_shown (protoEndpoint_shows endpoint)]

@[simp] theorem shownEndpoint_allowedIps : (shownEndpoint endpoint).allowedIps = endpoint.allowedIps := by
  rw [shownEndpoint, endpointData_shown (protoEndpoint_shows endpoint)]

end Shown

/-! Loading. -/

section Running

variable {policies : PolicyObject} {policy : SandboxPolicy}

def EndpointAccepted (endpoint : NetworkEndpoint) : Prop := (checkEndpoint "" (protoEndpointJson endpoint)).errors = []

/-- The engine has loaded the policy. -/
def RunsOn (policies : PolicyObject) (policy : SandboxPolicy) : Prop :=
  ∃ data, fromProtoData policy = .ok data ∧ Loaded data policies

def Accepted (policy : SandboxPolicy) : Prop :=
  ∀ name rule, policy.networkPolicies.lookup name = some rule → ∀ endpoint ∈ rule.endpoints, EndpointAccepted endpoint

theorem errors_proto : (validateL7Policies (protoToOpaDataJson policy)).errors = [] ↔ Accepted policy := by
  have checked := errors_validate (protoData_lists policy) fun entry _ endpoint _ loc =>
    (errors_checkEndpoint_loc loc (protoEndpointJson endpoint) : _ ↔ EndpointAccepted endpoint)
  rw [checked]
  constructor
  · intro passes name rule present
    exact passes ⟨name, rule⟩ (AList.mem_lookup_iff.mp present)
  · rintro passes ⟨name, rule⟩ member
    exact passes name rule (AList.mem_lookup_iff.mpr member)

theorem runsOn_iff : RunsOn policies policy ↔ Accepted policy ∧
    policies.entries = (loadedPolicies policy fun endpoint => expandAccess (protoEndpointJson endpoint)).entries ∧
    policies.empty = policies.entries.isEmpty := by
  have loads := loaded_proto expandAccess policy
  rw [← errors_proto]
  unfold RunsOn fromProtoData
  simp only
  split
  · rename_i broken
    constructor
    · rintro ⟨_, refused, _⟩
      cases refused
    · rintro ⟨clean, _⟩
      rw [clean] at broken
      cases broken
  · rename_i clean
    constructor
    · rintro ⟨data, isData, loaded⟩
      cases isData
      have same := loaded.entries.trans loads.entries.symm
      refine ⟨by simpa using clean, same, ?_⟩
      rw [same]
      exact loaded.empty.trans loads.empty.symm
    · rintro ⟨_, same, empty⟩
      refine ⟨_, rfl, same.trans loads.entries, ?_⟩
      rw [empty, same]
      exact loads.empty

theorem exists_runsOn (accepted : Accepted policy) : ∃ policies, RunsOn policies policy :=
  ⟨loadedPolicies policy _, runsOn_iff.mpr ⟨accepted, rfl, rfl⟩⟩

theorem mem_of_runsOn (runs : RunsOn policies policy) {name : String} {data : PolicyData} :
    (name, data) ∈ policies.entries ↔ ∃ rule, policy.networkPolicies.lookup name = some rule ∧ ruleData rule = data := by
  have sorted : ∀ entry, entry ∈ (SortedMap.ofMap policy.networkPolicies).map.entries ↔
      entry ∈ policy.networkPolicies.entries :=
    fun entry => (SortedMap.sortEntries_perm policy.networkPolicies).mem_iff
  rw [(runsOn_iff.mp runs).2.1]
  constructor
  · intro member
    obtain ⟨⟨key, rule⟩, stored, same⟩ := List.mem_map.mp member
    cases same
    exact ⟨rule, AList.mem_lookup_iff.mpr ((sorted _).mp stored), rfl⟩
  · rintro ⟨rule, present, rfl⟩
    exact List.mem_map.mpr ⟨⟨name, rule⟩, (sorted _).mpr (AList.mem_lookup_iff.mp present), rfl⟩

end Running

/-! Which policies match. -/

section Matching

variable {engine : OpaEngine} {input : NetworkInput}

theorem endpointMatchesRequest_eq (endpoint : EndpointData) : engine.endpointMatchesRequest input endpoint =
    ((engine.hostExact input endpoint || engine.hostGlob input endpoint || OpaEngine.hostless endpoint) &&
      OpaEngine.coversPort input endpoint) := by
  unfold OpaEngine.endpointMatchesRequest
  cases OpaEngine.coversPort input endpoint <;> simp

theorem endpointAllowed_iff {policy : PolicyData} : engine.endpointAllowed input policy = true ↔
    ∃ endpoint ∈ policy.endpoints, engine.endpointMatchesRequest input endpoint = true := by
  unfold OpaEngine.endpointAllowed OpaEngine.endpointMatchesRequest
  simp only [Bool.or_eq_true, List.any_eq_true]
  constructor
  · rintro ((⟨endpoint, inside, exact⟩ | ⟨endpoint, inside, glob⟩) | ⟨endpoint, inside, hostless⟩)
    · exact ⟨endpoint, inside, .inl (.inl exact)⟩
    · exact ⟨endpoint, inside, .inl (.inr glob)⟩
    · exact ⟨endpoint, inside, .inr hostless⟩
  · rintro ⟨endpoint, inside, (exact | glob) | hostless⟩
    · exact .inl (.inl ⟨endpoint, inside, exact⟩)
    · exact .inl (.inr ⟨endpoint, inside, glob⟩)
    · exact .inr ⟨endpoint, inside, hostless⟩

/-- A path of a policy lets the binary in. -/
def pathAllows (engine : OpaEngine) (input : NetworkInput) (path : String) : Bool :=
  if hasWildcard path then (input.binaryPath :: input.ancestors).any (engine.builtins.globMatch path ["/"])
  else path == input.binaryPath || input.ancestors.any (path == ·)

theorem binaryAllowed_iff {policy : PolicyData} : engine.binaryAllowed input policy = true ↔
    ∃ path ∈ policy.binaries, pathAllows engine input path = true := by
  unfold OpaEngine.binaryAllowed pathAllows
  simp only [Bool.or_eq_true, List.any_eq_true (l := policy.binaries), Bool.and_eq_true, Bool.not_eq_true']
  constructor
  · rintro ((⟨path, inside, plain, own⟩ | ⟨path, inside, plain, older⟩) | ⟨path, inside, wild, glob⟩)
    · exact ⟨path, inside, by simp [plain, own]⟩
    · exact ⟨path, inside, by simp only [plain, older]; simp⟩
    · exact ⟨path, inside, by rw [if_pos wild]; exact glob⟩
  · rintro ⟨path, inside, allows⟩
    cases wild : hasWildcard path with
    | false =>
      simp only [wild, Bool.false_eq_true, if_false, Bool.or_eq_true] at allows
      rcases allows with own | older
      · exact .inl (.inl ⟨path, inside, wild, own⟩)
      · exact .inl (.inr ⟨path, inside, wild, older⟩)
    | true =>
      rw [if_pos wild] at allows
      exact .inr ⟨path, inside, wild, allows⟩

theorem shownEndpoint_withIps_matches (endpoint : NetworkEndpoint) (ips : List String) :
    engine.endpointMatchesRequest input (shownEndpoint { endpoint with allowedIps := ips }) =
      ((engine.hostExact input (shownEndpoint endpoint) || engine.hostGlob input (shownEndpoint endpoint) ||
          (endpoint.host == "" && !ips.isEmpty)) && OpaEngine.coversPort input (shownEndpoint endpoint)) := by
  have ports : protoPorts { endpoint with allowedIps := ips } = protoPorts endpoint := rfl
  rw [endpointMatchesRequest_eq]
  simp only [OpaEngine.hostExact, OpaEngine.hostGlob, OpaEngine.hostless, OpaEngine.coversPort, shownEndpoint_host,
    shownEndpoint_ports, shownEndpoint_allowedIps, ports, Option.getD_some]

end Matching

/-! Which endpoints are accepted. -/

section Checks

theorem get_protoEndpointJson_withIps (endpoint : NetworkEndpoint) (ips : List String) {key : String}
    (other : key ≠ "allowed_ips") :
    (protoEndpointJson { endpoint with allowedIps := ips }).get key = (protoEndpointJson endpoint).get key := by
  have ports : protoPorts { endpoint with allowedIps := ips } = protoPorts endpoint := rfl
  simp only [protoEndpointJson, get_present_cons, get_present_nil, ports, if_neg other.symm]

/-- The checks do not look at the allowed addresses. -/
theorem endpointAccepted_withIps (endpoint : NetworkEndpoint) (ips : List String) :
    EndpointAccepted { endpoint with allowedIps := ips } ↔ EndpointAccepted endpoint := by
  have read : ∀ key, key ≠ "allowed_ips" →
      (protoEndpointJson { endpoint with allowedIps := ips }).get key = (protoEndpointJson endpoint).get key :=
    fun key other => get_protoEndpointJson_withIps endpoint ips other
  have texts : ∀ key, key ≠ "allowed_ips" →
      field key (protoEndpointJson { endpoint with allowedIps := ips }) = field key (protoEndpointJson endpoint) := by
    intro key other
    unfold field
    rw [read key other]
  have lists : ∀ key, key ≠ "allowed_ips" →
      items key (protoEndpointJson { endpoint with allowedIps := ips }) = items key (protoEndpointJson endpoint) := by
    intro key other
    unfold items
    rw [read key other]
  have single : scalarPort (protoEndpointJson { endpoint with allowedIps := ips }) =
      scalarPort (protoEndpointJson endpoint) := by
    unfold scalarPort
    rw [read "port" (by decide)]
  have several : portsOf (protoEndpointJson { endpoint with allowedIps := ips }) =
      portsOf (protoEndpointJson endpoint) := by
    unfold portsOf
    rw [lists "ports" (by decide), read "port" (by decide)]
  unfold EndpointAccepted checkEndpoint
  simp only [nonEmptyItems, texts "protocol" (by decide), texts "tls" (by decide), texts "access" (by decide),
    texts "host" (by decide), texts "enforcement" (by decide), lists "rules" (by decide), lists "ports" (by decide),
    single, several]
  rfl

/-- An endpoint without a protocol is accepted if its host is. -/
theorem endpointAccepted_plain (host : String) (port : UInt32) (ports : List UInt32) (ips : List String) :
    EndpointAccepted { host, port, ports, allowedIps := ips } ↔ (checkHost "" host).errors = [] := by
  unfold EndpointAccepted
  rw [errors_shown "" (protoEndpoint_shows _) rfl (by simp) (by simp)]
  constructor
  · intro passes
    exact passes.host
  · intro clean
    exact ⟨clean, .inl rfl, .inl rfl, .inl (show "" ≠ "sql" by decide)⟩

end Checks

end OpenShell.Sandbox
