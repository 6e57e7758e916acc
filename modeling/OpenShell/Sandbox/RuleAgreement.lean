import OpenShell.Sandbox.PolicyRules

namespace OpenShell.Sandbox

open Rego

namespace PolicyRules

variable (engine : Rego.Engine)

/-! The rules that match the endpoints of a policy, and those that match one endpoint. -/

theorem endpointAllowed_iff (policy network : Json) : endpointAllowed engine policy network = true ↔
    ∃ ep ∈ elements (policy.get "endpoints"), endpointMatchesRequest engine ep network = true := by
  have exact_any : endpointAllowedExact engine policy network =
      (elements (policy.get "endpoints")).any fun ep => endpointMatchesExact engine ep network := rfl
  have glob_any : endpointAllowedGlob engine policy network =
      (elements (policy.get "endpoints")).any fun ep => endpointMatchesGlob engine ep network := rfl
  have hostless_any : endpointAllowedHostless engine policy network =
      (elements (policy.get "endpoints")).any fun ep => endpointMatchesHostless engine ep network := rfl
  simp only [endpointAllowed, exact_any, glob_any, hostless_any, endpointMatchesRequest, Bool.or_eq_true,
    List.any_eq_true]
  constructor
  · intro allowed
    rcases allowed with (⟨ep, member, matched⟩ | ⟨ep, member, matched⟩) | ⟨ep, member, matched⟩
    · exact ⟨ep, member, .inl (.inl matched)⟩
    · exact ⟨ep, member, .inl (.inr matched)⟩
    · exact ⟨ep, member, .inr matched⟩
  · intro allowed
    rcases allowed with ⟨ep, member, (matched | matched) | matched⟩
    · exact .inl (.inl ⟨ep, member, matched⟩)
    · exact .inl (.inr ⟨ep, member, matched⟩)
    · exact .inr ⟨ep, member, matched⟩

/-- A policy without endpoints, such as `false`, allows nothing, so `data.network_policies[name]` holds as a
statement of its own for every policy that allows something. -/
theorem truthy_of_allowed {policy network : Json} (allowed : endpointAllowed engine policy network = true) :
    truthy policy = true := by
  obtain ⟨ep, member, -⟩ := (endpointAllowed_iff engine policy network).mp allowed
  cases policy with
  | bool value => cases member
  | _ => rfl

section Decisions

variable {data input : Json}

theorem networkPolicyForRequest_iff : networkPolicyForRequest engine data input = true ↔
    ∃ entry ∈ networkPolicies data,
      endpointAllowedFor engine input entry.2 = true ∧ binaryAllowedFor engine input entry.2 = true := by
  simp only [networkPolicyForRequest, List.any_eq_true, Bool.and_eq_true]
  constructor
  · intro allowed
    obtain ⟨entry, member, ⟨-, endpoint⟩, binary⟩ := allowed
    exact ⟨entry, member, endpoint, binary⟩
  · intro allowed
    obtain ⟨entry, member, endpoint, binary⟩ := allowed
    obtain ⟨network, -, allowed⟩ := (Option.any_eq_true _ _).mp endpoint
    exact ⟨entry, member, ⟨truthy_of_allowed engine allowed, endpoint⟩, binary⟩

theorem networkPolicyForRequest_of_allowRequest (allowed : allowRequest engine data input = true) :
    networkPolicyForRequest engine data input = true := by
  simp only [allowRequest, List.any_eq_true, Bool.and_eq_true] at allowed
  obtain ⟨entry, member, ⟨endpoint, binary⟩, -⟩ := allowed
  exact (networkPolicyForRequest_iff engine).mpr ⟨entry, member, endpoint, binary⟩

theorem networkAction_eq_allow_iff :
    networkAction engine data input = "allow" ↔ networkPolicyForRequest engine data input = true := by
  unfold networkAction
  split <;> simp [*]

end Decisions

/-- L4 and L7 match the same endpoints, and what L7 allows, L4 allows. -/
theorem l4_l7_agree :
    (∀ policy network, endpointAllowed engine policy network = true ↔
      ∃ ep ∈ elements (policy.get "endpoints"), endpointMatchesRequest engine ep network = true) ∧
    ∀ data input, allowRequest engine data input = true → allowNetwork engine data input = true :=
  ⟨endpointAllowed_iff engine, fun _ _ => networkPolicyForRequest_of_allowRequest engine⟩

def mapText (change : Char → Char) (text : String) : String := String.ofList (text.toList.map change)

/-- A glob without a wildcard matches its own text. -/
def textEngine : Rego.Engine :=
  scalarEngine (mapText Char.toLower) (mapText Char.toUpper) fun pattern _ text => pattern == text

def apiData : Json :=
  .object [("network_policies", .object [("api", .object
    [("binaries", .array [.object [("path", .string "/usr/bin/curl")]]),
      ("endpoints", .array [.object [("host", .string "api.example.com"), ("ports", .array [.integer 443]),
        ("rules", .array [.object [("allow", .object [("method", .string "GET"), ("path", .string "**")])]])]])])])]

def getInput : Json :=
  .object [("exec", .object [("path", .string "/usr/bin/curl")]),
    ("network", .object [("host", .string "API.example.com"), ("port", .integer 443)]),
    ("request", .object [("method", .string "get"), ("path", .string "/v1")])]

theorem l4_allows_get : allowNetwork textEngine apiData getInput = true :=
  (l4_l7_agree textEngine).2 apiData getInput (by decide +kernel)

/-! The command lines of a process. -/

/-- Two values of `input.exec` that differ in `cmdline_paths` only. -/
def SameExec (first second : Json) : Prop := ∀ key, key ≠ "cmdline_paths" → first.get key = second.get key

structure SameUpToCmdline (first second : Json) : Prop where
  others : ∀ key, key ≠ "exec" → first.get key = second.get key
  exec : Option.Rel SameExec (first.get "exec") (second.get "exec")

theorem binaryAllowed_congr {first second : Json} (same : SameExec first second) (policy : Json) :
    binaryAllowed engine policy first = binaryAllowed engine policy second := by
  have path := same "path" (by simp)
  have ancestors := same "ancestors" (by simp)
  have paths : allPaths first = allPaths second := by simp only [allPaths, path, ancestors]
  simp only [binaryAllowed, binaryAllowedExact, binaryAllowedAncestor, binaryAllowedGlob, path, ancestors, paths]

namespace SameUpToCmdline

variable {first second : Json}

theorem binary (same : SameUpToCmdline first second) : binaryAllowedFor engine first = binaryAllowedFor engine second := by
  funext policy
  have related := same.exec
  unfold binaryAllowedFor
  generalize first.get "exec" = firstExec, second.get "exec" = secondExec at related ⊢
  cases related with
  | none => rfl
  | some exec => exact binaryAllowed_congr engine exec policy

theorem endpoint (same : SameUpToCmdline first second) : endpointAllowedFor engine first = endpointAllowedFor engine second := by
  unfold endpointAllowedFor
  rw [same.others "network" (by simp)]

theorem configs (same : SameUpToCmdline first second) : policyEndpointConfigs engine first = policyEndpointConfigs engine second := by
  unfold policyEndpointConfigs endpointMatchesFor
  rw [same.others "network" (by simp)]

theorem requests (same : SameUpToCmdline first second) : policyAllowsL7 engine first = policyAllowsL7 engine second := by
  unfold policyAllowsL7 endpointMatchesFor
  rw [same.others "network" (by simp), same.others "request" (by simp)]

theorem connections (same : SameUpToCmdline first second) (data : Json) :
    networkPolicyForRequest engine data first = networkPolicyForRequest engine data second := by
  unfold networkPolicyForRequest
  rw [same.endpoint, same.binary]

theorem names (same : SameUpToCmdline first second) (data : Json) :
    matchingPolicyNames engine data first = matchingPolicyNames engine data second := by
  unfold matchingPolicyNames
  rw [same.endpoint, same.binary]

theorem endpointConfigs (same : SameUpToCmdline first second) (data : Json) :
    matchingEndpointConfigs engine data first = matchingEndpointConfigs engine data second := by
  unfold matchingEndpointConfigs
  rw [same.names, same.configs]

end SameUpToCmdline

/-- What a process writes on its command line decides nothing. -/
theorem cmdline_decides_nothing {first second : Json} (same : SameUpToCmdline first second) (data : Json) :
    allowNetwork engine data first = allowNetwork engine data second ∧
    networkAction engine data first = networkAction engine data second ∧
    matchedNetworkPolicy engine data first = matchedNetworkPolicy engine data second ∧
    allowRequest engine data first = allowRequest engine data second ∧
    matchedEndpointConfig engine data first = matchedEndpointConfig engine data second := by
  refine ⟨same.connections engine data, ?_, ?_, ?_, ?_⟩
  · rw [networkAction, networkAction, same.connections]
  · rw [matchedNetworkPolicy, matchedNetworkPolicy, same.names]
  · rw [allowRequest, allowRequest, same.endpoint, same.binary, same.requests]
  · rw [matchedEndpointConfig, matchedEndpointConfig, same.endpointConfigs]

theorem sameUpToCmdline_document (input : NetworkInput) (cmdlinePaths : List String) :
    SameUpToCmdline input.document { input with cmdlinePaths }.document where
  others key differs := by
    simp only [NetworkInput.document, Json.get, Json.asObject, Option.bind_some, List.lookup_cons,
      beq_false_of_ne differs]
  exec := .some fun key differs => by
    by_cases ancestors : key = "ancestors"
    · rw [ancestors]
      rfl
    · simp only [Json.get, Json.asObject, Option.bind_some, List.lookup_cons, beq_false_of_ne ancestors,
        beq_false_of_ne differs]

theorem cmdline_not_allowed :
    allowNetwork textEngine apiData
      (NetworkInput.document ⟨"api.example.com", 443, "/usr/bin/wget", [], ["/usr/bin/curl"]⟩) = false := by
  have same := sameUpToCmdline_document ⟨"api.example.com", 443, "/usr/bin/wget", [], ["/usr/bin/curl"]⟩ []
  rw [(cmdline_decides_nothing textEngine same apiData).1]
  decide +kernel

end PolicyRules

end OpenShell.Sandbox
