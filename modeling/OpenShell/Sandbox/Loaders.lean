import OpenShell.Policy.Yaml
import OpenShell.Sandbox.AcceptedConfig

namespace OpenShell.Sandbox

open OpenShell.Policy

/-! The two ways a policy gets into the engine: from its message, and from the YAML text it is written as. -/

/-- An object of the fields that are there. -/
def present (pieces : List (String × Option Json)) : Json :=
  .object (pieces.filterMap fun piece => piece.2.map fun value => (piece.1, value))

/-- A text that is written only where it is not empty. -/
def given (text : String) : Option String := if text.isEmpty then none else some text

def textPiece (text : String) : Option Json := (given text).map .string

def listPiece {α : Type} (json : α → Json) (list : List α) : Option Json :=
  if list.isEmpty then none else some (.array (list.map json))

def sortedJson {β : Type} (json : β → Json) (sorted : SortedMap β) : Json :=
  .object (sorted.map.entries.map fun entry => (entry.1, json entry.2))

def mapPiece {β : Type} (json : β → Json) (sorted : SortedMap β) : Option Json :=
  if sorted.map.entries.isEmpty then none else some (sortedJson json sorted)

/-! The document made of a message. -/

section Proto

def protoMatcherJson (matcher : L7QueryMatcher) : Json :=
  present [("any", listPiece .string matcher.any), ("glob", textPiece matcher.glob)]

def protoAllowJson (allow : L7Allow) : Json :=
  present [("command", some (.string allow.command)), ("method", some (.string allow.method)),
    ("path", some (.string allow.path)), ("query", mapPiece protoMatcherJson (SortedMap.ofFinite allow.query))]

def protoRuleJson (rule : L7Rule) : Json := .object [("allow", protoAllowJson (rule.allow.getD {}))]

/-- A list of ports counts before a single port, which counts before none. -/
def protoPorts (endpoint : NetworkEndpoint) : List UInt32 :=
  if !endpoint.ports.isEmpty then endpoint.ports else if 0 < endpoint.port then [endpoint.port] else []

def protoEndpointJson (endpoint : NetworkEndpoint) : Json :=
  present [("access", textPiece endpoint.access), ("allowed_ips", listPiece .string endpoint.allowedIps),
    ("enforcement", textPiece endpoint.enforcement), ("host", some (.string endpoint.host)),
    ("ports", some (.array ((protoPorts endpoint).map fun port => .integer port.toNat))),
    ("protocol", textPiece endpoint.protocol), ("rules", listPiece protoRuleJson endpoint.rules),
    ("tls", textPiece endpoint.tls)]

def protoPolicyJson (rule : NetworkPolicyRule) : Json :=
  .object [("binaries", .array (rule.binaries.map fun binary => .object [("path", .string binary.path)])),
    ("endpoints", .array (rule.endpoints.map protoEndpointJson)), ("name", .string rule.name)]

def textsJson (texts : List String) : Json := .array (texts.map .string)

def protoToOpaDataJson (proto : SandboxPolicy) : Json :=
  let fs := proto.filesystem.getD { includeWorkdir := true }
  let process := proto.process.getD { runAsUser := "sandbox", runAsGroup := "sandbox" }
  .object [
    ("filesystem_policy", .object [("include_workdir", .bool fs.includeWorkdir), ("read_only", textsJson fs.readOnly),
      ("read_write", textsJson fs.readWrite)]),
    ("landlock", .object [("compatibility", .string (proto.landlock.elim "best_effort" (·.compatibility)))]),
    ("network_policies", sortedJson protoPolicyJson (SortedMap.ofMap proto.networkPolicies)),
    ("process", .object [("run_as_group", .string process.runAsGroup), ("run_as_user", .string process.runAsUser)])]

/-- `OpaEngine::from_proto`, up to the document the engine is given. -/
def fromProtoData (proto : SandboxPolicy) : Except String Json :=
  let data := protoToOpaDataJson proto
  let findings := validateL7Policies data
  if !findings.errors.isEmpty then
    .error ("L7 policy validation failed:\n" ++ "\n".intercalate findings.errors)
  else .ok (expandAccessPresets data)

end Proto

/-! The document made of a file. -/

section Yaml

def yamlMatcherJson : QueryMatcherDef → Json
  | .glob pattern => .string pattern
  | .any def_ => present [("any", listPiece .string def_.any)]

def yamlRuleJson (rule : L7RuleDef) : Json :=
  .object [("allow", present [("command", textPiece rule.allow.command), ("method", textPiece rule.allow.method),
    ("path", textPiece rule.allow.path), ("query", mapPiece yamlMatcherJson (SortedMap.ofFinite rule.allow.query))])]

def yamlEndpointJson (endpoint : NetworkEndpointDef) : Json :=
  present [("access", textPiece endpoint.access), ("allowed_ips", listPiece .string endpoint.allowedIps),
    ("enforcement", textPiece endpoint.enforcement), ("host", textPiece endpoint.host),
    ("port", if endpoint.port = 0 then none else some (.integer endpoint.port.toNat)),
    ("ports", listPiece (fun port => .integer (UInt16.toNat port)) endpoint.ports),
    ("protocol", textPiece endpoint.protocol), ("rules", listPiece yamlRuleJson endpoint.rules),
    ("tls", textPiece endpoint.tls)]

def yamlPolicyJson (rule : NetworkPolicyRuleDef) : Json :=
  present [("binaries", listPiece (fun binary => .object [("path", .string binary.path)]) rule.binaries),
    ("endpoints", listPiece yamlEndpointJson rule.endpoints), ("name", textPiece rule.name)]

def policyFileJson (file : PolicyFile) : Json :=
  present [
    ("filesystem_policy", file.filesystemPolicy.map fun fs => present [("include_workdir", some (.bool fs.includeWorkdir)),
      ("read_only", listPiece .string fs.readOnly), ("read_write", listPiece .string fs.readWrite)]),
    ("landlock", file.landlock.map fun ll => present [("compatibility", textPiece ll.compatibility)]),
    ("network_policies", mapPiece yamlPolicyJson file.networkPolicies),
    ("process", file.process.map fun p =>
      present [("run_as_group", textPiece p.runAsGroup), ("run_as_user", textPiece p.runAsUser)]),
    ("version", some (.integer file.version.toNat))]

/-- The YAML library as the two loaders use it: what is written of a file reads as the document of that file. -/
structure YamlValues (Document : Type) extends YamlLibrary Document where
  readValue : Document → Except String Json
  value_round_trip : ∀ file text, toStr file = .ok text → readValue text = .ok (policyFileJson file)

/-- `OpaEngine::from_strings`, up to the document the engine is given. -/
def fromStringsData {Document : Type} (values : YamlValues Document) (yaml : Document) : Except String Json :=
  match values.readValue yaml with
  | .error reason => .error ("failed to parse YAML data: " ++ reason)
  | .ok data => preprocess data

end Yaml

end OpenShell.Sandbox
