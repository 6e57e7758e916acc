import OpenShell.Sandbox.LoadersAgree
import OpenShell.Sandbox.RuleAgreement

namespace OpenShell.Sandbox

open Rego OpenShell.Policy

namespace PolicyRules

/-! What the rules for connections make of the document of a message: a host, a port and a binary are let through by
one rule of the message. -/

/-- A connection of a binary that nothing else started. -/
def tripleDocument (host : String) (port : UInt32) (path : String) : Json :=
  .object [
    ("exec", .object [("ancestors", .array []), ("cmdline_paths", .array []), ("path", .string path)]),
    ("network", .object [("host", .string host), ("port", .integer port.toNat)])]

variable (engine : Rego.Engine)

/-- The host of an endpoint stands for the host: as a glob, as the name itself, or since it is left out where
addresses are listed. -/
def coversHost (pattern : String) (hasIps : Bool) (host : String) : Bool :=
  if hasWildcard pattern then engine.globMatch (engine.lower pattern) ["."] (engine.lower host)
  else engine.lower pattern == engine.lower host || (pattern == "" && hasIps)

theorem named_of_wildcard {pattern : String} (wild : hasWildcard pattern = true) : (pattern == "") = false := by
  rw [beq_eq_false_iff_ne]
  intro empty
  rw [empty] at wild
  exact absurd wild (by decide)

def coversBinary (pattern path : String) : Bool :=
  if hasWildcard pattern then engine.globMatch pattern ["/"] path else pattern == path

def coversEndpoint (endpoint : NetworkEndpoint) (hasIps : Bool) (host : String) (port : UInt32) : Bool :=
  coversHost engine endpoint.host hasIps host && (protoPorts endpoint).contains port

def ruleCovers (rule : NetworkPolicyRule) (host : String) (port : UInt32) (path : String) : Bool :=
  (rule.endpoints.any fun endpoint => coversEndpoint engine endpoint (!endpoint.allowedIps.isEmpty) host port) &&
    rule.binaries.any fun binary => coversBinary engine binary.path path

section Endpoints

variable (endpoint : NetworkEndpoint) (host : String) (port : UInt32) (path : String)

def networkOf : Json := .object [("host", .string host), ("port", .integer port.toNat)]

theorem contains_star (text : String) : contains (some (.string text)) "*" = hasWildcard text :=
  contains_char text '*' "*" rfl

theorem eq_strings (first second : String) :
    engine.eq (some (.string first)) (some (.string second)) = (first == second) := by
  rw [Bool.eq_iff_iff]
  simp [Engine.eq, engine.compare_string]

theorem portListed_proto :
    portListed engine (protoEndpointJson endpoint) (networkOf host port) = (protoPorts endpoint).contains port := by
  have ports : (protoEndpointJson endpoint).get "ports" =
      some (.array ((protoPorts endpoint).map fun port => .integer port.toNat)) := by
    simp only [protoEndpointJson, get_present_cons, get_present_nil, String.reduceEq, if_true, if_false,
      Option.none_or, Option.some_or]
  have asked : (networkOf host port).get "port" = some (.integer port.toNat) := rfl
  rw [portListed, ports, asked, elements_map, Bool.eq_iff_iff]
  simp [Engine.eq, engine.compare_integer, UInt32.toNat_inj]

theorem get_host_proto : (protoEndpointJson endpoint).get "host" = some (.string endpoint.host) := by
  simp only [protoEndpointJson, get_present_cons, get_present_nil, String.reduceEq, if_true, if_false,
    Option.none_or, Option.some_or]

theorem inhabited_ips_proto :
    inhabited (getOr (some (protoEndpointJson endpoint)) (.string "allowed_ips") (.array [])) =
      !endpoint.allowedIps.isEmpty := by
  have ips : (protoEndpointJson endpoint).get "allowed_ips" = listPiece .string endpoint.allowedIps := by
    simp only [protoEndpointJson, get_present_cons, get_present_nil, String.reduceEq, if_true, if_false,
      Option.none_or, Option.or_none]
  rw [getOr_object rfl, ips, listPiece]
  cases endpoint.allowedIps <;> simp [inhabited, count]

/-- The three clauses come to the host and the port. -/
theorem endpointMatchesRequest_proto :
    endpointMatchesRequest engine (protoEndpointJson endpoint) (networkOf host port) =
      coversEndpoint engine endpoint (!endpoint.allowedIps.isEmpty) host port := by
  have asked : (networkOf host port).get "host" = some (.string host) := rfl
  have lowered : ∀ text, engine.lowered (some (.string text)) = some (.string (engine.lower text)) := fun _ => rfl
  have glob : ∀ pattern text, engine.glob (some (.string pattern)) ["."] (some (.string text)) =
      engine.globMatch pattern ["."] text := fun _ _ => rfl
  unfold endpointMatchesRequest endpointMatchesExact endpointMatchesGlob endpointMatchesHostless coversEndpoint coversHost
  rw [portListed_proto, inhabited_ips_proto, getOr_object rfl, get_host_proto, asked, Option.getD_some, lowered,
    lowered, eq_strings, eq_strings, glob, contains_star]
  cases wild : hasWildcard endpoint.host with
  | false =>
    simp only [Bool.not_false, Bool.true_and, Bool.false_and, Bool.or_false, Bool.false_eq_true, if_false]
    cases (protoPorts endpoint).contains port <;> simp
  | true =>
    simp [named_of_wildcard wild]

end Endpoints

section Rules

variable (rule : NetworkPolicyRule) (host : String) (port : UInt32) (path : String)

theorem endpointAllowed_proto :
    endpointAllowed engine (protoPolicyJson rule) (networkOf host port) =
      rule.endpoints.any fun endpoint => coversEndpoint engine endpoint (!endpoint.allowedIps.isEmpty) host port := by
  have endpoints : (protoPolicyJson rule).get "endpoints" = some (.array (rule.endpoints.map protoEndpointJson)) := rfl
  rw [Bool.eq_iff_iff, endpointAllowed_iff, endpoints, elements_map]
  simp [endpointMatchesRequest_proto]

def execOf : Json := .object [("ancestors", .array []), ("cmdline_paths", .array []), ("path", .string path)]

theorem binaryAllowed_proto :
    binaryAllowed engine (protoPolicyJson rule) (execOf path) =
      rule.binaries.any fun binary => coversBinary engine binary.path path := by
  have binaries : (protoPolicyJson rule).get "binaries" =
      some (.array (rule.binaries.map fun binary => .object [("path", .string binary.path)])) := rfl
  have asked : (execOf path).get "path" = some (.string path) := rfl
  have alone : (execOf path).get "ancestors" = some (.array []) := rfl
  have paths : allPaths (execOf path) = [.string path] := rfl
  have held : ∀ binary : NetworkBinary, (Json.object [("path", .string binary.path)]).get "path" =
      some (.string binary.path) := fun _ => rfl
  have glob : ∀ pattern text, engine.glob (some (.string pattern)) ["/"] (some (.string text)) =
      engine.globMatch pattern ["/"] text := fun _ _ => rfl
  have noAncestors : elements (some (.array [])) = [] := rfl
  unfold binaryAllowed binaryAllowedExact binaryAllowedAncestor binaryAllowedGlob coversBinary
  rw [binaries, elements_map, asked, alone, paths, noAncestors]
  simp only [List.any_map, Function.comp_def, held, contains_star, eq_strings, glob, List.any_cons, List.any_nil,
    Bool.or_false, Bool.and_false]
  induction rule.binaries with
  | nil => rfl
  | cons binary binaries ih =>
    simp only [List.any_cons, ← ih]
    cases hasWildcard binary.path <;> simp [Bool.or_assoc, Bool.or_left_comm]

end Rules

/-- A rule of the message covers the connection. -/
def Grants (policy : SandboxPolicy) (host : String) (port : UInt32) (path : String) : Prop :=
  ∃ name rule, policy.networkPolicies.lookup name = some rule ∧ ruleCovers engine rule host port path = true

theorem allowNetwork_proto (policy : SandboxPolicy) (host : String) (port : UInt32) (path : String) :
    allowNetwork engine (protoToOpaDataJson policy) (tripleDocument host port path) = true ↔
      Grants engine policy host port path := by
  have held : (protoToOpaDataJson policy).get "network_policies" =
      some (sortedJson protoPolicyJson (SortedMap.ofMap policy.networkPolicies)) := rfl
  have named : networkPolicies (protoToOpaDataJson policy) = (SortedMap.ofMap policy.networkPolicies).map.entries.map
      fun entry => (.string entry.1, protoPolicyJson entry.2) := by
    rw [networkPolicies, held, Option.elim_some, sortedJson, entries, List.map_map]
    rfl
  have endpoint : ∀ rule, endpointAllowedFor engine (tripleDocument host port path) (protoPolicyJson rule) =
      rule.endpoints.any fun endpoint => coversEndpoint engine endpoint (!endpoint.allowedIps.isEmpty) host port :=
    fun rule => endpointAllowed_proto engine rule host port
  have binary : ∀ rule, binaryAllowedFor engine (tripleDocument host port path) (protoPolicyJson rule) =
      rule.binaries.any fun binary => coversBinary engine binary.path path :=
    fun rule => binaryAllowed_proto engine rule path
  rw [allowNetwork, networkPolicyForRequest_iff, named]
  simp only [List.mem_map, exists_exists_and_eq_and, endpoint, binary, Grants, ruleCovers, Bool.and_eq_true]
  constructor
  · intro granted
    obtain ⟨entry, member, covers⟩ := granted
    have found := AList.mem_lookup_iff.mpr member
    rw [SortedMap.ofMap_lookup] at found
    exact ⟨entry.1, entry.2, found, covers⟩
  · intro granted
    obtain ⟨name, rule, found, covers⟩ := granted
    rw [← SortedMap.ofMap_lookup] at found
    exact ⟨⟨name, rule⟩, AList.mem_lookup_iff.mp found, covers⟩

end PolicyRules

end OpenShell.Sandbox
