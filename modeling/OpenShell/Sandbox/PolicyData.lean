import OpenShell.Lib.Json
import OpenShell.Lib.Rego
import OpenShell.Lib.Text
import OpenShell.Sandbox.Engine

namespace OpenShell.Sandbox

open Text

/-! The data document of a policy: how it is checked and completed before the engine gets it. -/

/-- The text of a field, empty where there is none. -/
def field (key : String) (value : Json) : String := ((value.get key).bind Json.asStr).getD ""

def items (key : String) (value : Json) : Option (List Json) := (value.get key).bind Json.asArray

def nonEmptyItems (key : String) (value : Json) : Bool := (items key value).any fun list => !list.isEmpty

def onEndpoints (change : Json → Json) (data : Json) : Json :=
  data.modify "network_policies" (Json.mapObject (Json.modify "endpoints" (Json.mapArray change)))

/-! Ports. -/

def scalarPort (ep : Json) : Nat := ((ep.get "port").bind Json.asU64).getD 0

def normalizeEndpoint (ep : Json) : Json :=
  let promoted :=
    if !nonEmptyItems "ports" ep && 0 < scalarPort ep then
      ep.insert "ports" (.array [.integer (scalarPort ep)])
    else ep
  promoted.remove "port"

def normalizeEndpointPorts (data : Json) : Json := onEndpoints normalizeEndpoint data

/-! Checks. -/

/-- Errors prevent the start of the sandbox; warnings are logged. -/
structure Findings where
  errors : List String := []
  warnings : List String := []

instance : Append Findings where
  append first second := ⟨first.errors ++ second.errors, first.warnings ++ second.warnings⟩

def Findings.error (text : String) : Findings := { errors := [text] }

def Findings.warning (text : String) : Findings := { warnings := [text] }

def Findings.collect (findings : List Findings) : Findings := findings.foldl (· ++ ·) {}

def errorIf (bad : Bool) (text : String) : Findings := if bad then .error text else {}

def warningIf (bad : Bool) (text : String) : Findings := if bad then .warning text else {}

/-- The first thing wrong with the brackets of a text: one that closes nothing, or one left open. -/
def unbalanced (opening closing : Char) : Nat → List Char → Option String
  | 0, [] => none
  | _ + 1, [] => some ("has unclosed '" ++ opening.toString ++ "'")
  | depth, c :: text =>
    if c = opening then unbalanced opening closing (depth + 1) text
    else if c = closing then
      match depth with
      | 0 => some ("has unmatched '" ++ closing.toString ++ "'")
      | depth + 1 => unbalanced opening closing depth text
    else unbalanced opening closing depth text

def checkGlobSyntax (pattern : String) : Option String :=
  ((unbalanced '[' ']' 0 pattern.toList).or (unbalanced '\x7b' '\x7d' 0 pattern.toList)).map fun problem =>
    "glob pattern '" ++ pattern ++ "' " ++ problem

def globWarning (loc pattern : String) : Findings :=
  match checkGlobSyntax pattern with
  | some warning => .warning (loc ++ ": " ++ warning)
  | none => {}

def checkHost (loc host : String) : Findings :=
  if !hasWildcard host then {}
  else if host = "*" ∨ host = "**" then
    .error (loc ++ ": host wildcard '" ++ host ++
      "' matches all hosts; use specific patterns like '*.example.com'")
  else if !"*.".toList.isPrefixOf host.toList && !"**.".toList.isPrefixOf host.toList then
    .error (loc ++ ": host wildcard must start with '*.' or '**.' (e.g., '*.example.com'), got '" ++ host ++ "'")
  else
    warningIf (decide ((split '.' host.toList).length ≤ 2))
      (loc ++ ": host wildcard '" ++ host ++ "' is very broad (covers all subdomains of a TLD)")

def validMethods : List String := ["GET", "HEAD", "POST", "PUT", "DELETE", "PATCH", "OPTIONS", "*"]

def toAsciiUppercase (text : String) : String := String.ofList (text.toList.map Char.toUpper)

def checkMethod (loc : String) (rule : Json) : Findings :=
  match ((rule.get "allow").bind (Json.get "method")).bind Json.asStr with
  | none => {}
  | some method =>
    warningIf (!method.isEmpty && !validMethods.contains (toAsciiUppercase method))
      (loc ++ ": Unknown HTTP method '" ++ method ++
        "'. Standard methods: GET, HEAD, POST, PUT, DELETE, PATCH, OPTIONS.")

def checkAny (loc : String) (matcher : Json) : Findings :=
  match items "any" matcher with
  | none => .error (loc ++ ".any: expected array of glob strings")
  | some any =>
    if any.isEmpty then .error (loc ++ ".any: list must not be empty")
    else
      errorIf (any.any fun item => item.asStr.isNone) (loc ++ ".any: all values must be strings") ++
        Findings.collect ((any.filterMap Json.asStr).map (globWarning (loc ++ ".any")))

def checkMatcherObject (loc : String) (matcher : Json) (fields : List (String × Json)) : Findings :=
  let hasAny := (matcher.get "any").isSome
  let hasGlob := (matcher.get "glob").isSome
  if fields.any fun entry => entry.1 ≠ "any" && entry.1 ≠ "glob" then
    .error (loc ++ ": unknown matcher keys; only `glob` or `any` are supported")
  else if hasGlob && hasAny then .error (loc ++ ": matcher cannot specify both `glob` and `any`")
  else if !hasGlob && !hasAny then
    .error (loc ++ ": object matcher requires `glob` string or non-empty `any` list")
  else if hasGlob then
    match (matcher.get "glob").bind Json.asStr with
    | none => .error (loc ++ ".glob: expected glob string")
    | some glob => globWarning (loc ++ ".glob") glob
  else checkAny loc matcher

def checkMatcher (loc : String) (matcher : Json) : Findings :=
  match matcher with
  | .string glob => globWarning loc glob
  | .object fields => checkMatcherObject loc matcher fields
  | _ => .error (loc ++ ": expected string glob or object with `any`")

def checkQuery (loc : String) (rule : Json) : Findings :=
  match ((rule.get "allow").bind (Json.get "query")).filter (!·.isNull) with
  | none => {}
  | some (.object fields) =>
    Findings.collect (fields.map fun entry => checkMatcher (loc ++ "." ++ entry.1) entry.2)
  | some _ => .error (loc ++ ": expected map of query matchers")

def checkRules (loc : String) (rules : List Json) : Findings :=
  Findings.collect (rules.zipIdx.map fun (rule, index) =>
    checkMethod loc rule ++ checkQuery (loc ++ ".rules[" ++ toString index ++ "].allow.query") rule)

def portsOf (ep : Json) : List Nat :=
  match items "ports" ep with
  | some ports => ports.filterMap Json.asU64
  | none => (((ep.get "port").bind Json.asU64).filter (0 < ·)).toList

def checkEndpoint (loc : String) (ep : Json) : Findings :=
  let protocol := field "protocol" ep
  let tls := field "tls" ep
  let access := field "access" ep
  let hasRules := nonEmptyItems "rules" ep
  checkHost loc (field "host" ep) ++
  errorIf (0 < scalarPort ep && nonEmptyItems "ports" ep)
    (loc ++ ": port and ports are mutually exclusive; use ports for multiple ports") ++
  errorIf (hasRules && !access.isEmpty) (loc ++ ": rules and access are mutually exclusive") ++
  errorIf (!protocol.isEmpty && !hasRules && access.isEmpty)
    (loc ++ ": protocol requires rules or access to define allowed traffic") ++
  warningIf (tls = "terminate" || tls = "passthrough")
    (loc ++ ": 'tls: " ++ tls ++
      "' is deprecated; TLS termination is now automatic. Use 'tls: skip' to disable.") ++
  warningIf (tls = "skip" && !protocol.isEmpty && (portsOf ep).contains 443)
    (loc ++ ": 'tls: skip' with L7 rules on port 443 — L7 inspection cannot work on encrypted traffic") ++
  errorIf (protocol = "sql" && field "enforcement" ep = "enforce")
    (loc ++ ": SQL enforcement requires full SQL parsing (not available in v1). Use `enforcement: audit`.") ++
  errorIf ((items "rules" ep).any (·.isEmpty))
    (loc ++ ": rules list cannot be empty (would deny all traffic). Use `access: full` or remove rules.") ++
  (if hasRules && protocol = "rest" then checkRules loc ((items "rules" ep).getD []) else {})

def checkPolicy (name : String) (policy : Json) : Findings :=
  Findings.collect (((items "endpoints" policy).getD []).zipIdx.map fun (ep, index) =>
    checkEndpoint (name ++ ".endpoints[" ++ toString index ++ "]") ep)

def validateL7Policies (data : Json) : Findings :=
  Findings.collect ((((data.get "network_policies").bind Json.asObject).getD []).map fun (name, policy) =>
    checkPolicy name policy)

/-! Access presets. -/

def ruleJson (method path : String) : Json :=
  .object [("allow", .object [("method", .string method), ("path", .string path)])]

def presetRules (access : String) : Option (List Json) :=
  if access = "read-only" then some (["GET", "HEAD", "OPTIONS"].map (ruleJson · "**"))
  else if access = "read-write" then
    some (["GET", "HEAD", "OPTIONS", "POST", "PUT", "PATCH"].map (ruleJson · "**"))
  else if access = "full" then some [ruleJson "*" "**"]
  else none

def expandAccess (ep : Json) : Json :=
  if nonEmptyItems "rules" ep then ep
  else
    match presetRules (field "access" ep) with
    | some rules => ep.insert "rules" (.array rules)
    | none => ep

def expandAccessPresets (data : Json) : Json := onEndpoints expandAccess data

/-- What `preprocess_yaml_data` makes of a document. -/
def preprocess (data : Json) : Except String Json :=
  let normalized := normalizeEndpointPorts data
  let findings := validateL7Policies normalized
  if !findings.errors.isEmpty then
    .error ("L7 policy validation failed:\n" ++ "\n".intercalate findings.errors)
  else .ok (expandAccessPresets normalized)

/-! The document as the rules of the policy read it. -/

def textField (key : String) (value : Json) : Option String := (value.get key).bind Json.asStr

def strArray (key : String) (value : Json) : List String := ((items key value).getD []).filterMap Json.asStr

def queryMatcher : Json → QueryMatcher
  | .string glob => .pattern glob
  | matcher => .object (textField "glob" matcher) (strArray "any" matcher)

def allowData (rule : Json) : AllowData :=
  let allow := (rule.get "allow").getD .null
  { method := textField "method" allow
    path := textField "path" allow
    command := textField "command" allow
    query := (((allow.get "query").bind Json.asObject).getD []).map fun entry => (entry.1, queryMatcher entry.2) }

def endpointData (ep : Json) : EndpointData where
  host := textField "host" ep
  ports := ((items "ports" ep).getD []).filterMap Json.asU64
  protocol := textField "protocol" ep
  tls := textField "tls" ep
  enforcement := textField "enforcement" ep
  rules := ((items "rules" ep).getD []).map allowData
  allowedIps := strArray "allowed_ips" ep

def policyData (policy : Json) : PolicyData where
  endpoints := ((items "endpoints" policy).getD []).map endpointData
  binaries := ((items "binaries" policy).getD []).filterMap (textField "path")

/-- The engine runs on this document. -/
structure Loaded (data : Json) (policies : PolicyObject) : Prop where
  entries : policies.entries = (((data.get "network_policies").bind Json.asObject).getD []).map fun entry =>
    (entry.1, policyData entry.2)
  empty : policies.empty = (Rego.count (data.get "network_policies") == some 0)

end OpenShell.Sandbox
