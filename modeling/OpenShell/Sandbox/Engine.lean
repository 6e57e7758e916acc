import Mathlib.Data.List.AList
import Mathlib.Data.String.Basic

namespace OpenShell.Sandbox

/-! The policy engine: the rules of `sandbox-policy.rego` over the data document, and the queries that
evaluate them. A field that may be missing from the document is an `Option`; an undefined expression
makes the rule that uses it fail. -/

/-- The built-in functions of the Rego engine, which is outside the repository. -/
structure Builtins where
  lower : String → String
  upper : String → String
  globMatch : String → List String → String → Bool

inductive QueryMatcher where
  | pattern (glob : String)
  | object (glob : Option String) (any : List String)
deriving DecidableEq

structure AllowData where
  method : Option String := none
  path : Option String := none
  command : Option String := none
  query : List (String × QueryMatcher) := []
deriving DecidableEq

structure EndpointData where
  host : Option String := none
  ports : List Nat := []
  protocol : Option String := none
  tls : Option String := none
  enforcement : Option String := none
  rules : List AllowData := []
  allowedIps : List String := []
deriving DecidableEq

structure PolicyData where
  endpoints : List EndpointData := []
  binaries : List String := []
deriving DecidableEq

/-- `data.network_policies`: an object, iterated in the order of its keys. `empty` is
`count(data.network_policies) == 0`, which is undefined where the document has no such object. -/
structure PolicyObject where
  entries : List (String × PolicyData)
  sorted : entries.Pairwise fun first second => first.1 < second.1
  empty : Bool := entries.isEmpty
  none_listed : empty = true → entries = [] := by simp

def PolicyObject.get (policies : PolicyObject) (name : String) : Option PolicyData :=
  (policies.entries.find? fun entry => entry.1 = name).map Prod.snd

structure NetworkInput where
  host : String
  port : UInt16
  binaryPath : String
  ancestors : List String := []
  cmdlinePaths : List String := []

structure OpaEngine where
  builtins : Builtins
  networkPolicies : PolicyObject

inductive NetworkAction where
  | allow (matchedPolicy : Option String)
  | deny (reason : String)
deriving DecidableEq

def hasWildcard (text : String) : Bool := text.toList.contains '*'

namespace OpaEngine

variable (engine : OpaEngine)

section Matching

variable (input : NetworkInput)

def coversPort (endpoint : EndpointData) : Bool := endpoint.ports.any (· == input.port.toNat)

def hostExact (endpoint : EndpointData) : Bool :=
  match endpoint.host with
  | some host => !hasWildcard host && engine.builtins.lower host == engine.builtins.lower input.host
  | none => false

def hostGlob (endpoint : EndpointData) : Bool :=
  match endpoint.host with
  | some host => hasWildcard host &&
      engine.builtins.globMatch (engine.builtins.lower host) ["."] (engine.builtins.lower input.host)
  | none => false

def hostless (endpoint : EndpointData) : Bool :=
  endpoint.host.getD "" == "" && !endpoint.allowedIps.isEmpty

def endpointAllowed (policy : PolicyData) : Bool :=
  policy.endpoints.any (fun endpoint => engine.hostExact input endpoint && coversPort input endpoint) ||
  policy.endpoints.any (fun endpoint => engine.hostGlob input endpoint && coversPort input endpoint) ||
  policy.endpoints.any (fun endpoint => hostless endpoint && coversPort input endpoint)

def binaryAllowed (policy : PolicyData) : Bool :=
  policy.binaries.any (fun path => !hasWildcard path && path == input.binaryPath) ||
  policy.binaries.any (fun path => !hasWildcard path && input.ancestors.any (path == ·)) ||
  policy.binaries.any (fun path => hasWildcard path &&
    (input.binaryPath :: input.ancestors).any (engine.builtins.globMatch path ["/"]))

def policyMatches (policy : PolicyData) : Bool :=
  engine.endpointAllowed input policy && engine.binaryAllowed input policy

def matchingPolicyNames : List String :=
  (engine.networkPolicies.entries.filter fun entry => engine.policyMatches input entry.2).map Prod.fst

def matchedNetworkPolicy : Option String := (engine.matchingPolicyNames input).min?

def networkPolicyForRequest : Bool :=
  engine.networkPolicies.entries.any fun entry => engine.policyMatches input entry.2

def endpointMisses : List String :=
  (engine.networkPolicies.entries.filter fun entry => !engine.endpointAllowed input entry.2).map fun entry =>
    "endpoint " ++ input.host ++ ":" ++ toString input.port ++ " not in policy '" ++ entry.1 ++ "'"

def binaryMisses : List String :=
  (engine.networkPolicies.entries.filter fun entry =>
      engine.endpointAllowed input entry.2 && !engine.binaryAllowed input entry.2).map fun entry =>
    "binary '" ++ input.binaryPath ++ "' (ancestors: [" ++ " -> ".intercalate input.ancestors ++
      "], cmdline: [" ++ ", ".intercalate input.cmdlinePaths ++ "]) not allowed in policy '" ++ entry.1 ++ "'"

/-- An undefined `deny_reason` is read as the empty text. -/
def denyReason : String :=
  if engine.networkPolicyForRequest input then ""
  else
    let reasons := engine.endpointMisses input ++ engine.binaryMisses input
    if !reasons.isEmpty then "; ".intercalate reasons
    else if engine.networkPolicies.empty then "network connections not allowed by policy"
    else ""

def evaluateNetworkAction : NetworkAction :=
  if engine.networkPolicyForRequest input then .allow (engine.matchedNetworkPolicy input)
  else .deny (engine.denyReason input)

/-! The endpoint whose configuration applies to a connection. -/

def endpointMatchesRequest (endpoint : EndpointData) : Bool :=
  engine.hostExact input endpoint && coversPort input endpoint ||
  engine.hostGlob input endpoint && coversPort input endpoint ||
  hostless endpoint && coversPort input endpoint

def endpointHasExtendedConfig (endpoint : EndpointData) : Bool :=
  endpoint.protocol.isSome || !endpoint.allowedIps.isEmpty || endpoint.tls.isSome

def policyEndpointConfigs (policy : PolicyData) : List EndpointData :=
  policy.endpoints.filter fun endpoint =>
    engine.endpointMatchesRequest input endpoint && endpointHasExtendedConfig endpoint

def matchingEndpointConfigs : List EndpointData :=
  (engine.matchingPolicyNames input).flatMap fun name =>
    (engine.networkPolicies.get name).elim [] (engine.policyEndpointConfigs input)

def queryEndpointConfig : Option EndpointData := (engine.matchingEndpointConfigs input).head?

end Matching

/-! Requests inside a tunnel. -/

structure RequestData where
  method : String
  path : String
  queryParams : AList (fun _ : String => List String) := ∅

section Requests

variable (request : RequestData)

def methodMatches (actual expected : String) : Bool :=
  expected == "*" || (expected != "*" && engine.builtins.upper actual == engine.builtins.upper expected)

def pathMatches (actual pattern : String) : Bool :=
  pattern == "**" || (pattern != "**" && engine.builtins.globMatch pattern ["/"] actual)

def queryValueMatches (value : String) : QueryMatcher → Bool
  | .pattern glob => engine.builtins.globMatch glob [] value
  | .object glob any =>
    (glob.getD "" != "" && engine.builtins.globMatch (glob.getD "") [] value) ||
      (!any.isEmpty && any.any fun pattern => engine.builtins.globMatch pattern [] value)

def queryKeyMatches (key : String) (matcher : QueryMatcher) : Bool :=
  match request.queryParams.lookup key with
  | none => false
  | some values => !values.isEmpty && !values.any fun value => !engine.queryValueMatches value matcher

def queryParamsMatch (allow : AllowData) : Bool :=
  !allow.query.any fun entry => !engine.queryKeyMatches request entry.1 entry.2

/-- A request over HTTP carries no `command`, so the rule for SQL does not apply. -/
def requestAllowedForEndpoint (endpoint : EndpointData) : Bool :=
  endpoint.rules.any fun allow =>
    match allow.method, allow.path with
    | some method, some path => engine.methodMatches request.method method &&
        engine.pathMatches request.path path && engine.queryParamsMatch request allow
    | _, _ => false

def policyAllowsL7 (input : NetworkInput) (policy : PolicyData) : Bool :=
  policy.endpoints.any fun endpoint =>
    engine.endpointMatchesRequest input endpoint && engine.requestAllowedForEndpoint request endpoint

def allowRequest (input : NetworkInput) : Bool :=
  engine.networkPolicies.entries.any fun entry =>
    engine.policyMatches input entry.2 && engine.policyAllowsL7 request input entry.2

def requestDenyReason : String := request.method ++ " " ++ request.path ++ " not permitted by policy"

end Requests

end OpaEngine

end OpenShell.Sandbox
