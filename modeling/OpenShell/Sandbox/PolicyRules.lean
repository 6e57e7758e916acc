import OpenShell.Lib.Rego
import OpenShell.Sandbox.Engine

namespace OpenShell.Sandbox

open Rego

/-! The rules of `sandbox-policy.rego`, definition by definition, over any document and any input. A function
of the rules is called on values: a call on an undefined argument is undefined. -/

/-- What the engine is asked about a connection. -/
def NetworkInput.document (input : NetworkInput) : Json :=
  .object [
    ("exec", .object [("ancestors", .array (input.ancestors.map .string)),
      ("cmdline_paths", .array (input.cmdlinePaths.map .string)), ("path", .string input.binaryPath)]),
    ("network", .object [("host", .string input.host), ("port", .integer input.port.toNat)])]

namespace PolicyRules

variable (engine : Rego.Engine)

def portListed (ep network : Json) : Bool :=
  (elements (ep.get "ports")).any fun port => engine.eq (some port) (network.get "port")

/-! Core matching logic. -/

section Endpoints

variable (policy network : Json)

/-- Exact host and port. -/
def endpointAllowedExact : Bool :=
  (elements (policy.get "endpoints")).any fun endpoint =>
    !contains (endpoint.get "host") "*" &&
    engine.eq (engine.lowered (endpoint.get "host")) (engine.lowered (network.get "host")) &&
    portListed engine endpoint network

/-- A glob for the host. -/
def endpointAllowedGlob : Bool :=
  (elements (policy.get "endpoints")).any fun endpoint =>
    contains (endpoint.get "host") "*" &&
    engine.glob (engine.lowered (endpoint.get "host")) ["."] (engine.lowered (network.get "host")) &&
    portListed engine endpoint network

/-- No host, but allowed addresses. -/
def endpointAllowedHostless : Bool :=
  (elements (policy.get "endpoints")).any fun endpoint =>
    engine.eq (getOr (some endpoint) (.string "host") (.string "")) (some (.string "")) &&
    inhabited (getOr (some endpoint) (.string "allowed_ips") (.array [])) &&
    portListed engine endpoint network

def endpointAllowed : Bool :=
  endpointAllowedExact engine policy network || endpointAllowedGlob engine policy network ||
    endpointAllowedHostless engine policy network

end Endpoints

section Binaries

variable (policy exec : Json)

def binaryAllowedExact : Bool :=
  (elements (policy.get "binaries")).any fun b =>
    !contains (b.get "path") "*" && engine.eq (b.get "path") (exec.get "path")

def binaryAllowedAncestor : Bool :=
  (elements (policy.get "binaries")).any fun b =>
    !contains (b.get "path") "*" &&
    (elements (exec.get "ancestors")).any fun ancestor => engine.eq (b.get "path") (some ancestor)

/-- `array.concat` needs an array of ancestors. -/
def allPaths : List Json :=
  match exec.get "path", (exec.get "ancestors").bind Json.asArray with
  | some path, some ancestors => path :: ancestors
  | _, _ => []

def binaryAllowedGlob : Bool :=
  (elements (policy.get "binaries")).any fun b =>
    contains (b.get "path") "*" && (allPaths exec).any fun p => engine.glob (b.get "path") ["/"] (some p)

def binaryAllowed : Bool :=
  binaryAllowedExact engine policy exec || binaryAllowedAncestor engine policy exec ||
    binaryAllowedGlob engine policy exec

end Binaries

section Connections

variable (data input : Json)

/-- `data.network_policies[name]`. -/
def networkPolicies : List (Json × Json) := (data.get "network_policies").elim [] entries

def endpointAllowedFor (policy : Json) : Bool := (input.get "network").any (endpointAllowed engine policy)

def binaryAllowedFor (policy : Json) : Bool := (input.get "exec").any (binaryAllowed engine policy)

def networkPolicyForRequest : Bool :=
  (networkPolicies data).any fun entry =>
    truthy entry.2 && endpointAllowedFor engine input entry.2 && binaryAllowedFor engine input entry.2

def allowNetwork : Bool := networkPolicyForRequest engine data input

def matchingPolicyNames : List Json :=
  ((networkPolicies data).filter fun entry =>
    endpointAllowedFor engine input entry.2 && binaryAllowedFor engine input entry.2).map Prod.fst

def matchedNetworkPolicy : Option Json :=
  if 0 < (matchingPolicyNames engine data input).length then engine.min (matchingPolicyNames engine data input)
  else none

def networkAction : String := if networkPolicyForRequest engine data input then "allow" else "deny"

/-! Deny reasons. -/

def inputAt (section_ key : String) : Option Json := (input.get section_).bind (Json.get key)

def endpointMiss (name : Json) : Option String :=
  engine.sprintf [.inl "endpoint ", .inr (inputAt input "network" "host"), .inl ":",
    .inr (inputAt input "network" "port"), .inl " not in policy '", .inr (some name), .inl "'"]

def endpointMisses : List String :=
  ((networkPolicies data).filter fun entry => !endpointAllowedFor engine input entry.2).filterMap fun entry =>
    endpointMiss engine input entry.1

def binaryMiss (ancestorsStr cmdlineStr : String) (name : Json) : Option String :=
  engine.sprintf [.inl "binary '", .inr (inputAt input "exec" "path"), .inl "' (ancestors: [",
    .inr (some (.string ancestorsStr)), .inl "], cmdline: [", .inr (some (.string cmdlineStr)),
    .inl "]) not allowed in policy '", .inr (some name), .inl "'"]

def binaryMisses (ancestorsStr cmdlineStr : String) : List String :=
  ((networkPolicies data).filter fun entry =>
    endpointAllowedFor engine input entry.2 && !binaryAllowedFor engine input entry.2).filterMap fun entry =>
    binaryMiss engine input ancestorsStr cmdlineStr entry.1

def missingNetwork : List String := if !holds (input.get "network") then ["missing input.network"] else []

def missingExec : List String :=
  if holds (input.get "network") && !holds (input.get "exec") then ["missing input.exec"] else []

def bothSections : Bool := holds (input.get "network") && holds (input.get "exec")

def missReasons : List String :=
  if bothSections input && !networkPolicyForRequest engine data input then
    match concat " -> " (inputAt input "exec" "ancestors"), concat ", " (inputAt input "exec" "cmdline_paths") with
    | some ancestorsStr, some cmdlineStr =>
      let allReasons := endpointMisses engine data input ++ binaryMisses engine data input ancestorsStr cmdlineStr
      if 0 < allReasons.length then ["; ".intercalate allReasons] else []
    | _, _ => []
  else []

def noPolicies : List String :=
  if bothSections input && !networkPolicyForRequest engine data input &&
      count (data.get "network_policies") == some 0 then
    ["network connections not allowed by policy"]
  else []

/-- The values of the four definitions of `deny_reason`. -/
def denyReasons : List String :=
  missingNetwork input ++ missingExec input ++ missReasons engine data input ++ noPolicies engine data input

def denyReason : Outcome String := complete (denyReasons engine data input)

end Connections

/-! Requests inside a tunnel. -/

section Requests

def methodMatches (actual expected : Json) : Bool :=
  engine.eq (some expected) (some (.string "*")) ||
  (engine.ne (some expected) (some (.string "*")) &&
    engine.eq (engine.uppered (some actual)) (engine.uppered (some expected)))

def pathMatches (actual pattern : Json) : Bool :=
  engine.eq (some pattern) (some (.string "**")) ||
  (engine.ne (some pattern) (some (.string "**")) && engine.glob (some pattern) ["/"] (some actual))

def queryValueMatches (value matcher : Json) : Bool :=
  matcher.asStr.isSome && engine.glob (some matcher) [] (some value) ||
  matcher.asObject.isSome &&
    (let globPattern := getOr (some matcher) (.string "glob") (.string "")
     engine.ne globPattern (some (.string "")) && engine.glob globPattern [] (some value)) ||
  matcher.asObject.isSome &&
    (let anyPatterns := getOr (some matcher) (.string "any") (.array [])
     inhabited anyPatterns && (elements anyPatterns).any fun pattern => engine.glob (some pattern) [] (some value))

def queryValueMismatch (values matcher : Json) : Bool :=
  (elements (some values)).any fun value => !queryValueMatches engine value matcher

def queryKeyMatches (request key matcher : Json) : Bool :=
  (getOr (getOr (some request) (.string "query_params") (.object [])) key .null).any fun values =>
    engine.ne (some values) (some .null) && inhabited (some values) && !queryValueMismatch engine values matcher

def queryMismatch (request queryRules : Json) : Bool :=
  (entries queryRules).any fun entry => !queryKeyMatches engine request entry.1 entry.2

def queryParamsMatch (request rule : Json) : Bool :=
  (getOr (rule.get "allow") (.string "query") (.object [])).any fun queryRules =>
    !queryMismatch engine request queryRules

def commandMatches (actual expected : Json) : Bool :=
  engine.eq (some expected) (some (.string "*")) ||
  (engine.ne (some expected) (some (.string "*")) &&
    engine.eq (engine.uppered (some actual)) (engine.uppered (some expected)))

def called (rule : Json → Json → Bool) : Option Json → Option Json → Bool
  | some first, some second => rule first second
  | _, _ => false

def allowAt (rule : Json) (key : String) : Option Json := (rule.get "allow").bind (Json.get key)

def requestAllowedRest (request endpoint : Json) : Bool :=
  (elements (endpoint.get "rules")).any fun rule =>
    holds (allowAt rule "method") &&
    called (methodMatches engine) (request.get "method") (allowAt rule "method") &&
    called (pathMatches engine) (request.get "path") (allowAt rule "path") &&
    queryParamsMatch engine request rule

def requestAllowedSql (request endpoint : Json) : Bool :=
  (elements (endpoint.get "rules")).any fun rule =>
    holds (allowAt rule "command") &&
    called (commandMatches engine) (request.get "command") (allowAt rule "command")

def requestAllowedForEndpoint (request endpoint : Json) : Bool :=
  requestAllowedRest engine request endpoint || requestAllowedSql engine request endpoint

end Requests

section Configurations

variable (ep network : Json)

def endpointMatchesExact : Bool :=
  !contains (ep.get "host") "*" &&
  engine.eq (engine.lowered (ep.get "host")) (engine.lowered (network.get "host")) && portListed engine ep network

def endpointMatchesGlob : Bool :=
  contains (ep.get "host") "*" &&
  engine.glob (engine.lowered (ep.get "host")) ["."] (engine.lowered (network.get "host")) &&
  portListed engine ep network

def endpointMatchesHostless : Bool :=
  engine.eq (getOr (some ep) (.string "host") (.string "")) (some (.string "")) &&
  inhabited (getOr (some ep) (.string "allowed_ips") (.array [])) && portListed engine ep network

def endpointMatchesRequest : Bool :=
  endpointMatchesExact engine ep network || endpointMatchesGlob engine ep network ||
    endpointMatchesHostless engine ep network

def endpointHasExtendedConfig : Bool :=
  holds (ep.get "protocol") || inhabited (getOr (some ep) (.string "allowed_ips") (.array [])) || holds (ep.get "tls")

end Configurations

section Queries

variable (data input : Json)

def endpointMatchesFor (ep : Json) : Bool := (input.get "network").any (endpointMatchesRequest engine ep)

def policyAllowsL7 (policy : Json) : Bool :=
  (elements (policy.get "endpoints")).any fun ep =>
    endpointMatchesFor engine input ep &&
    (input.get "request").any fun request => requestAllowedForEndpoint engine request ep

def allowRequest : Bool :=
  (networkPolicies data).any fun entry =>
    endpointAllowedFor engine input entry.2 && binaryAllowedFor engine input entry.2 &&
    policyAllowsL7 engine input entry.2

def policyEndpointConfigs (policy : Json) : List Json :=
  (elements (policy.get "endpoints")).filter fun ep =>
    endpointMatchesFor engine input ep && endpointHasExtendedConfig ep

/-- L7 deny reason. -/
def requestDenyReason : Option String :=
  if holds (input.get "request") && !allowRequest engine data input then
    engine.sprintf [.inr (inputAt input "request" "method"), .inl " ", .inr (inputAt input "request" "path"),
      .inl " not permitted by policy"]
  else none

/-- `data.network_policies[name]` for one name. -/
def policyAt (name : Json) : Option Json :=
  ((networkPolicies data).find? fun entry => engine.eq (some entry.1) (some name)).map Prod.snd

def matchingEndpointConfigs : List Json :=
  (matchingPolicyNames engine data input).flatMap fun pname =>
    (policyAt engine data pname).elim [] (policyEndpointConfigs engine input)

def matchedEndpointConfig : Option Json :=
  if 0 < (matchingEndpointConfigs engine data input).length then (matchingEndpointConfigs engine data input)[0]?
  else none

end Queries

end PolicyRules

end OpenShell.Sandbox
