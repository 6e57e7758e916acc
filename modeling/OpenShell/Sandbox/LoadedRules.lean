import OpenShell.Sandbox.QueryRules
import OpenShell.Sandbox.RuleTriples
import OpenShell.Sandbox.RunningPolicy

namespace OpenShell.Sandbox

open Rego OpenShell.Policy

namespace PolicyRules

/-! The rules over a document, and the engine that was loaded from it, let the same connections and the same
requests through. -/

/-- Values of one kind, if any. -/
def ListOf (kind : Json → Prop) (value : Option Json) : Prop :=
  ∀ held ∈ value, ∃ items, held = .array items ∧ ∀ item ∈ items, kind item

def Textual (value : Json) : Prop := ∃ text, value = .string text

def Portlike (value : Json) : Prop := ∃ port : Nat, port < 2 ^ 64 ∧ value = .integer port

structure ShapedMatcher (matcher : Json) : Prop where
  glob : ∀ held ∈ matcher.get "glob", Textual held
  any : ListOf Textual (matcher.get "any")

def ShapedRule (rule : Json) : Prop :=
  ∀ held ∈ (rule.get "allow").bind (Json.get "query"),
    held = .null ∨ ∃ fields, held = .object fields ∧ ∀ field ∈ fields, ShapedMatcher field.2

structure ShapedEndpoint (ep : Json) : Prop where
  isObject : ep.asObject.isSome
  host : ∀ held ∈ ep.get "host", Textual held
  ports : ListOf Portlike (ep.get "ports")
  allowedIps : ListOf Textual (ep.get "allowed_ips")
  rules : ListOf ShapedRule (ep.get "rules")

structure ShapedPolicy (policy : Json) : Prop where
  endpoints : ListOf ShapedEndpoint (policy.get "endpoints")
  binaries : ListOf (fun _ => True) (policy.get "binaries")

structure ShapedData (data : Json) : Prop where
  policies : ∀ held ∈ data.get "network_policies", ∃ fields, held = .object fields ∧ ∀ field ∈ fields, ShapedPolicy field.2

theorem elements_items {kind : Json → Prop} {key : String} {value : Json} (shaped : ListOf kind (value.get key)) :
    elements (value.get key) = (items key value).getD [] := by
  unfold items
  cases held : value.get key with
  | none => rfl
  | some list =>
    obtain ⟨items, rfl, -⟩ := shaped list held
    have whole := elements_map id items
    rwa [List.map_id] at whole

theorem ListOf.kind {kind : Json → Prop} {key : String} {value : Json} (shaped : ListOf kind (value.get key)) :
    ∀ item ∈ (items key value).getD [], kind item := by
  intro item member
  unfold items at member
  cases held : value.get key with
  | none => simp [held] at member
  | some list =>
    obtain ⟨items, rfl, each⟩ := shaped list held
    rw [held] at member
    exact each item member

theorem texts_of_textual {items : List Json} (texts : ∀ item ∈ items, Textual item) :
    items = (items.filterMap Json.asStr).map .string := by
  induction items with
  | nil => rfl
  | cons item items ih =>
    obtain ⟨text, rfl⟩ := texts item List.mem_cons_self
    have rest := ih fun item member => texts item (List.mem_cons_of_mem _ member)
    have read : (Json.string text).asStr = some text := rfl
    rw [List.filterMap_cons_some read, List.map_cons, ← rest]

theorem texts_loaded {key : String} {value : Json} (shaped : ListOf Textual (value.get key)) :
    (value.get key).getD (.array []) = .array ((strArray key value).map .string) := by
  unfold strArray items
  cases held : value.get key with
  | none => rfl
  | some list =>
    obtain ⟨items, rfl, texts⟩ := shaped list held
    exact congrArg Json.array (texts_of_textual texts)

theorem inhabited_texts (texts : List String) : inhabited (some (.array (texts.map .string))) = !texts.isEmpty := by
  cases texts <;> simp [inhabited, count]

variable {engine : Rego.Engine} {opa : OpaEngine}

/-- The engine of the rules is that of the documents. -/
def Alike (engine : Rego.Engine) (opa : OpaEngine) : Prop :=
  opa.builtins = ⟨engine.lower, engine.upper, engine.globMatch⟩

theorem eq_text (value : Option Json) (text : String) :
    engine.eq value (some (.string text)) = (value.bind Json.asStr).any fun held => held == text := by
  cases value with
  | none => rfl
  | some value =>
    rw [Bool.eq_iff_iff]
    cases value <;> simp [Engine.eq, engine.compare_string, Json.asStr]

theorem ne_text (first second : String) :
    engine.ne (some (.string first)) (some (.string second)) = (first != second) := by
  rw [Bool.eq_iff_iff, ne_string]
  simp

def askedNetwork (input : NetworkInput) : Json :=
  .object [("host", .string input.host), ("port", .integer input.port.toNat)]

def askedExec (input : NetworkInput) : Json :=
  .object [("ancestors", .array (input.ancestors.map .string)),
    ("cmdline_paths", .array (input.cmdlinePaths.map .string)), ("path", .string input.binaryPath)]

section Endpoints

variable {ep : Json} (input : NetworkInput)

theorem portListed_loaded (shaped : ShapedEndpoint ep) :
    portListed engine ep (askedNetwork input) = OpaEngine.coversPort input (endpointData ep) := by
  have asked : (askedNetwork input).get "port" = some (.integer input.port.toNat) := rfl
  unfold portListed OpaEngine.coversPort endpointData
  rw [elements_items shaped.ports, asked, List.any_filterMap, Bool.eq_iff_iff, List.any_eq_true, List.any_eq_true]
  refine exists_congr fun item => and_congr_right fun member => ?_
  obtain ⟨port, small, rfl⟩ := shaped.ports.kind item member
  rw [asU64_of_lt small]
  simp [Engine.eq, engine.compare_integer]

theorem inhabited_loaded (shaped : ShapedEndpoint ep) :
    inhabited (getOr (some ep) (.string "allowed_ips") (.array [])) = !(endpointData ep).allowedIps.isEmpty := by
  rw [getOr_object shaped.isObject, texts_loaded shaped.allowedIps, inhabited_texts]
  rfl

/-- The host of an endpoint is read as it stands. -/
theorem host_loaded (shaped : ShapedEndpoint ep) : ep.get "host" = (endpointData ep).host.map .string := by
  have read : (endpointData ep).host = (ep.get "host").bind Json.asStr := rfl
  rw [read]
  cases held : ep.get "host" with
  | none => rfl
  | some host =>
    obtain ⟨text, rfl⟩ := shaped.host host held
    rfl

theorem endpointMatchesRequest_loaded (alike : Alike engine opa) (shaped : ShapedEndpoint ep) :
    endpointMatchesRequest engine ep (askedNetwork input) = opa.endpointMatchesRequest input (endpointData ep) := by
  have asked : (askedNetwork input).get "host" = some (.string input.host) := rfl
  have lowered : ∀ text, engine.lowered (some (.string text)) = some (.string (engine.lower text)) := fun _ => rfl
  have glob : ∀ pattern text, engine.glob (some (.string pattern)) ["."] (some (.string text)) =
      engine.globMatch pattern ["."] text := fun _ _ => rfl
  unfold endpointMatchesRequest endpointMatchesExact endpointMatchesGlob endpointMatchesHostless
    OpaEngine.endpointMatchesRequest OpaEngine.hostExact OpaEngine.hostGlob OpaEngine.hostless
  rw [portListed_loaded input shaped, inhabited_loaded shaped, getOr_object shaped.isObject, host_loaded shaped, asked,
    lowered, alike]
  cases (endpointData ep).host with
  | none =>
    have undefined : engine.lowered none = none := rfl
    rw [Option.map_none, undefined, Option.getD_none, eq_strings]
    rfl
  | some host =>
    rw [Option.map_some, lowered, eq_strings, glob, contains_star, Option.getD_some, eq_strings]
    rfl

end Endpoints

section Binaries

variable {policy : Json} (input : NetworkInput)

/-- A binary without a path that is a text stands for no binary. -/
theorem path_loaded (b : Json) (path : String) : engine.eq (b.get "path") (some (.string path)) =
    (textField "path" b).any fun pattern => pattern == path :=
  eq_text (b.get "path") path

theorem wildcard_loaded (b : Json) : contains (b.get "path") "*" = (textField "path" b).any hasWildcard := by
  unfold textField
  cases held : b.get "path" with
  | none => rfl
  | some value => cases value <;> first | exact contains_star _ | rfl

theorem glob_loaded (b : Json) (path : String) : engine.glob (b.get "path") ["/"] (some (.string path)) =
    (textField "path" b).any fun pattern => engine.globMatch pattern ["/"] path := by
  unfold textField Engine.glob
  cases (b.get "path").bind Json.asStr <;> rfl

theorem binaryAllowed_loaded (alike : Alike engine opa) (shaped : ShapedPolicy policy) :
    binaryAllowed engine policy (askedExec input) = opa.binaryAllowed input (policyData policy) := by
  have asked : (askedExec input).get "path" = some (.string input.binaryPath) := rfl
  have older : (askedExec input).get "ancestors" = some (.array (input.ancestors.map .string)) := rfl
  have paths : allPaths (askedExec input) = (input.binaryPath :: input.ancestors).map .string := rfl
  have read : (policyData policy).binaries = ((items "binaries" policy).getD []).filterMap (textField "path") := rfl
  unfold binaryAllowed binaryAllowedExact binaryAllowedAncestor binaryAllowedGlob OpaEngine.binaryAllowed
  rw [elements_items shaped.binaries, asked, older, paths, elements_map, read, alike]
  simp only [List.any_filterMap, List.any_map, Function.comp_def, path_loaded, wildcard_loaded, glob_loaded]
  congr 1
  · congr 1
    all_goals
      congr 1
      funext b
      cases textField "path" b <;> simp
  · congr 1
    funext b
    cases textField "path" b <;> simp

end Binaries

section Policies

variable {policy data : Json} (input : NetworkInput)

theorem endpointAllowed_loaded (alike : Alike engine opa) (shaped : ShapedPolicy policy) :
    endpointAllowed engine policy (askedNetwork input) = opa.endpointAllowed input (policyData policy) := by
  have read : (policyData policy).endpoints = ((items "endpoints" policy).getD []).map endpointData := rfl
  rw [Bool.eq_iff_iff, endpointAllowed_iff, Sandbox.endpointAllowed_iff, elements_items shaped.endpoints, read]
  simp only [List.mem_map, exists_exists_and_eq_and]
  refine exists_congr fun ep => and_congr_right fun member => ?_
  rw [endpointMatchesRequest_loaded input alike (shaped.endpoints.kind ep member)]

theorem allowNetwork_loaded (alike : Alike engine opa) (shaped : ShapedData data)
    (loaded : Loaded data opa.networkPolicies) :
    allowNetwork engine data input.document = opa.networkPolicyForRequest input := by
  have network : input.document.get "network" = some (askedNetwork input) := rfl
  have exec : input.document.get "exec" = some (askedExec input) := rfl
  rw [allowNetwork, Bool.eq_iff_iff, networkPolicyForRequest_iff]
  unfold OpaEngine.networkPolicyForRequest networkPolicies endpointAllowedFor binaryAllowedFor
  rw [loaded.entries, network, exec]
  cases held : data.get "network_policies" with
  | none => simp
  | some value =>
    obtain ⟨fields, rfl, each⟩ := shaped.policies value held
    simp only [Option.elim_some, entries, Option.bind_some, Json.asObject, Option.getD_some, List.any_map, List.mem_map,
      exists_exists_and_eq_and, Option.any_some, List.any_eq_true, Function.comp_apply, OpaEngine.policyMatches,
      Bool.and_eq_true]
    refine exists_congr fun field => and_congr_right fun member => ?_
    rw [endpointAllowed_loaded input alike (each field member), binaryAllowed_loaded input alike (each field member)]

end Policies

section Requests

variable (request : OpaEngine.RequestData)

theorem queryValueMatches_loaded {matcher : Json} (alike : Alike engine opa) (shaped : ShapedMatcher matcher)
    (value : String) :
    queryValueMatches engine (.string value) matcher = opa.queryValueMatches value (queryMatcher matcher) := by
  cases matcher with
  | string glob =>
    rw [queryMatcher, OpaEngine.queryValueMatches, alike]
    simp [queryValueMatches, Json.asStr, Json.asObject, glob_strings]
  | object fields =>
    have written : ((Json.object fields).get "glob").getD (.string "") =
        .string ((textField "glob" (.object fields)).getD "") := by
      unfold textField
      cases held : (Json.object fields).get "glob" with
      | none => rfl
      | some value =>
        obtain ⟨text, rfl⟩ := shaped.glob value held
        rfl
    have read : queryMatcher (.object fields) = .object (textField "glob" (.object fields)) (strArray "any" (.object fields)) :=
      rfl
    rw [read, OpaEngine.queryValueMatches, alike]
    simp only [queryValueMatches, getOr_fields, written, texts_loaded shaped.any, inhabited_texts, elements_map, ne_text,
      glob_strings, List.any_map, Function.comp_def]
    rfl
  | _ => rfl

theorem queryKeyMatches_loaded {matcher : Json} (alike : Alike engine opa) (shaped : ShapedMatcher matcher)
    (key : String) :
    queryKeyMatches engine request.document (.string key) matcher =
      opa.queryKeyMatches request key (queryMatcher matcher) := by
  unfold queryKeyMatches OpaEngine.queryKeyMatches
  rw [values_of_request, Option.any_some]
  cases found : request.queryParams.lookup key with
  | none =>
    simp [absent_null]
  | some values =>
    rw [Option.map_some, Option.getD_some, present_texts, textsJson, inhabited_texts, queryValueMismatch, elements_map]
    simp only [List.any_map, Function.comp_def, queryValueMatches_loaded alike shaped, Bool.true_and]

/-- A request is met by what a rule configures, and a rule without an object to allow is met by none. -/
theorem queryParamsMatch_loaded {rule allow : Json} (alike : Alike engine opa) (shaped : ShapedRule rule)
    (isAllow : rule.get "allow" = some allow) (isObject : allow.asObject.isSome) :
    queryParamsMatch engine request.document rule = opa.queryParamsMatch request (allowData rule) := by
  have read : (allowData rule).query = (((allow.get "query").bind Json.asObject).getD []).map
      fun entry => (entry.1, queryMatcher entry.2) := by
    rw [allowData, isAllow, Option.getD_some]
  unfold ShapedRule at shaped
  rw [isAllow, Option.bind_some] at shaped
  unfold queryParamsMatch queryMismatch OpaEngine.queryParamsMatch
  rw [isAllow, getOr_object isObject, Option.any_some, read]
  cases held : allow.get "query" with
  | none => rfl
  | some value =>
    rcases shaped value held with rfl | ⟨fields, rfl, each⟩
    · rfl
    · simp only [Option.getD_some, entries, Option.bind_some, Json.asObject, List.any_map, Function.comp_def]
      congr 1
      rw [Bool.eq_iff_iff, List.any_eq_true, List.any_eq_true]
      refine exists_congr fun field => and_congr_right fun member => ?_
      rw [queryKeyMatches_loaded request alike (each field member)]

theorem methodMatches_loaded (alike : Alike engine opa) (actual : String) (expected : Json) :
    (holds (some expected) && methodMatches engine (.string actual) expected) =
      expected.asStr.any (opa.methodMatches actual) := by
  unfold OpaEngine.methodMatches methodMatches
  rw [alike, eq_text]
  cases expected with
  | string text =>
    have upper : engine.eq (engine.uppered (some (.string actual))) (engine.uppered (some (.string text))) =
        (engine.upper actual == engine.upper text) := eq_strings engine _ _
    rw [upper, ne_text]
    rfl
  | _ => simp [Engine.uppered, Json.asStr, Engine.eq]

theorem pathMatches_loaded (alike : Alike engine opa) (actual : String) (expected : Json) :
    pathMatches engine (.string actual) expected = expected.asStr.any (opa.pathMatches actual) := by
  unfold OpaEngine.pathMatches pathMatches
  rw [alike, eq_text]
  cases expected with
  | string text =>
    rw [ne_text, glob_strings]
    rfl
  | _ => simp [Engine.glob, Json.asStr]

/-- One rule of an endpoint. -/
theorem rule_loaded {rule : Json} (alike : Alike engine opa) (shaped : ShapedRule rule) :
    (holds (allowAt rule "method") &&
      called (methodMatches engine) (some (.string request.method)) (allowAt rule "method") &&
      called (pathMatches engine) (some (.string request.path)) (allowAt rule "path") &&
      queryParamsMatch engine request.document rule) =
    match (allowData rule).method, (allowData rule).path with
    | some method, some path => opa.methodMatches request.method method && opa.pathMatches request.path path &&
        opa.queryParamsMatch request (allowData rule)
    | _, _ => false := by
  unfold allowAt
  cases isAllow : rule.get "allow" with
  | none =>
    have noMethod : (allowData rule).method = none := by
      rw [allowData, isAllow]
      rfl
    simp [noMethod, holds]
  | some allow =>
    have methodRead : (allowData rule).method = textField "method" allow := by rw [allowData, isAllow, Option.getD_some]
    have pathRead : (allowData rule).path = textField "path" allow := by rw [allowData, isAllow, Option.getD_some]
    have byMethod : (holds (allow.get "method") &&
        called (methodMatches engine) (some (.string request.method)) (allow.get "method")) =
          (textField "method" allow).any (opa.methodMatches request.method) := by
      unfold textField
      cases allow.get "method" with
      | none => rfl
      | some expected => exact methodMatches_loaded alike request.method expected
    have byPath : called (pathMatches engine) (some (.string request.path)) (allow.get "path") =
        (textField "path" allow).any (opa.pathMatches request.path) := by
      unfold textField
      cases allow.get "path" with
      | none => rfl
      | some expected => exact pathMatches_loaded alike request.path expected
    rw [Option.bind_some, Option.bind_some, byMethod, byPath, methodRead, pathRead]
    cases method : textField "method" allow with
    | none => simp
    | some expected =>
      have isObject : allow.asObject.isSome := by
        obtain ⟨value, held, -⟩ := Option.bind_eq_some_iff.mp method
        obtain ⟨fields, isFields, -⟩ := Option.bind_eq_some_iff.mp held
        rw [isFields]
        rfl
      rw [queryParamsMatch_loaded request alike shaped isAllow isObject]
      cases textField "path" allow <;> simp

theorem requestAllowed_loaded {ep : Json} (alike : Alike engine opa) (shaped : ShapedEndpoint ep) :
    requestAllowedForEndpoint engine request.document ep = opa.requestAllowedForEndpoint request (endpointData ep) := by
  have method : request.document.get "method" = some (.string request.method) := rfl
  have path : request.document.get "path" = some (.string request.path) := rfl
  have command : request.document.get "command" = none := rfl
  have read : (endpointData ep).rules = ((items "rules" ep).getD []).map allowData := rfl
  have overHttp : requestAllowedSql engine request.document ep = false := by
    simp [requestAllowedSql, command, called]
  rw [requestAllowedForEndpoint, overHttp, Bool.or_false, requestAllowedRest, method, path,
    elements_items shaped.rules, OpaEngine.requestAllowedForEndpoint, read, List.any_map, Bool.eq_iff_iff,
    List.any_eq_true, List.any_eq_true]
  refine exists_congr fun rule => and_congr_right fun member => ?_
  rw [rule_loaded request alike (shaped.rules.kind rule member)]
  rfl

end Requests

section Documents

variable {policy data : Json} (input : NetworkInput) (request : OpaEngine.RequestData)

/-- A request inside a connection, as the engine is asked about it. -/
def requestInput : Json :=
  .object [("exec", askedExec input), ("network", askedNetwork input), ("request", request.document)]

theorem policyAllowsL7_loaded (alike : Alike engine opa) (shaped : ShapedPolicy policy) :
    policyAllowsL7 engine (requestInput input request) policy = opa.policyAllowsL7 request input (policyData policy) := by
  have network : (requestInput input request).get "network" = some (askedNetwork input) := rfl
  have asked : (requestInput input request).get "request" = some request.document := rfl
  have read : (policyData policy).endpoints = ((items "endpoints" policy).getD []).map endpointData := rfl
  unfold policyAllowsL7 OpaEngine.policyAllowsL7 endpointMatchesFor
  rw [elements_items shaped.endpoints, network, asked, read, List.any_map, Bool.eq_iff_iff, List.any_eq_true,
    List.any_eq_true]
  refine exists_congr fun ep => and_congr_right fun member => ?_
  have shapedEndpoint := shaped.endpoints.kind ep member
  rw [Option.any_some, Option.any_some, endpointMatchesRequest_loaded input alike shapedEndpoint,
    requestAllowed_loaded request alike shapedEndpoint]
  rfl

theorem allowRequest_loaded (alike : Alike engine opa) (shaped : ShapedData data)
    (loaded : Loaded data opa.networkPolicies) :
    allowRequest engine data (requestInput input request) = opa.allowRequest request input := by
  have network : (requestInput input request).get "network" = some (askedNetwork input) := rfl
  have exec : (requestInput input request).get "exec" = some (askedExec input) := rfl
  unfold allowRequest OpaEngine.allowRequest networkPolicies endpointAllowedFor binaryAllowedFor
  rw [loaded.entries, network, exec, Bool.eq_iff_iff]
  cases held : data.get "network_policies" with
  | none => simp
  | some value =>
    obtain ⟨fields, rfl, each⟩ := shaped.policies value held
    simp only [Option.elim_some, entries, Option.bind_some, Json.asObject, Option.getD_some, List.any_map, Option.any_some,
      List.any_eq_true, Function.comp_apply, OpaEngine.policyMatches, Bool.and_eq_true]
    refine exists_congr fun field => and_congr_right fun member => ?_
    rw [endpointAllowed_loaded input alike (each field member), binaryAllowed_loaded input alike (each field member),
      policyAllowsL7_loaded input request alike (each field member)]

end Documents

/-! The document made of a message has this shape. -/

section Proto

theorem listOf_map {α : Type} {kind : Json → Prop} {json : α → Json} {list : List α} (each : ∀ item ∈ list, kind (json item)) :
    ListOf kind (some (.array (list.map json))) := by
  intro held found
  cases found
  refine ⟨_, rfl, ?_⟩
  intro item member
  obtain ⟨source, inside, rfl⟩ := List.mem_map.mp member
  exact each source inside

theorem listOf_piece {α : Type} {kind : Json → Prop} {json : α → Json} {list : List α}
    (each : ∀ item ∈ list, kind (json item)) : ListOf kind (listPiece json list) := by
  unfold listPiece
  split
  · intro held found
    cases found
  · exact listOf_map each

theorem shaped_matcher (matcher : L7QueryMatcher) : ShapedMatcher (protoMatcherJson matcher) := by
  constructor
  all_goals
    simp only [protoMatcherJson, get_present_cons, get_present_nil, String.reduceEq, if_true, if_false, Option.none_or,
      Option.or_none]
  · intro held written
    obtain ⟨text, -, rfl⟩ := Option.map_eq_some_iff.mp written
    exact ⟨text, rfl⟩
  · exact listOf_piece fun text _ => ⟨text, rfl⟩

theorem shaped_rule (rule : L7Rule) : ShapedRule (protoRuleJson rule) := by
  have allow : (protoRuleJson rule).get "allow" = some (protoAllowJson (rule.allow.getD {})) := rfl
  unfold ShapedRule
  rw [allow, Option.bind_some]
  simp only [protoAllowJson, get_present_cons, get_present_nil, String.reduceEq, if_true, if_false, Option.none_or,
    Option.or_none]
  unfold mapPiece
  split
  · intro held found
    cases found
  · intro held found
    cases found
    refine .inr ⟨_, rfl, ?_⟩
    intro field member
    obtain ⟨entry, -, rfl⟩ := List.mem_map.mp member
    exact shaped_matcher entry.2

theorem shaped_endpoint (endpoint : NetworkEndpoint) : ShapedEndpoint (protoEndpointJson endpoint) := by
  refine ⟨rfl, ?_, ?_, ?_, ?_⟩
  all_goals
    simp only [protoEndpointJson, get_present_cons, get_present_nil, String.reduceEq, if_true, if_false, Option.none_or,
      Option.or_none]
  · intro held found
    cases found
    exact ⟨endpoint.host, rfl⟩
  · exact listOf_map fun port _ => ⟨port.toNat, lt_trans port.toNat_lt (by decide), rfl⟩
  · exact listOf_piece fun text _ => ⟨text, rfl⟩
  · exact listOf_piece fun rule _ => shaped_rule rule

theorem shaped_preset {access : String} {rules : List Json} (preset : presetRules access = some rules) :
    ∀ rule ∈ rules, ShapedRule rule := by
  have each : ∀ methods : List String, ∀ rule ∈ methods.map (ruleJson · "**"), ShapedRule rule := by
    intro methods rule member
    obtain ⟨method, -, rfl⟩ := List.mem_map.mp member
    intro held found
    cases found
  unfold presetRules at preset
  split at preset
  · cases preset
    exact each _
  · split at preset
    · cases preset
      exact each _
    · split at preset
      · cases preset
        exact each ["*"]
      · cases preset

/-- A preset adds rules without queries. -/
theorem shaped_expandAccess {ep : Json} (shaped : ShapedEndpoint ep) : ShapedEndpoint (expandAccess ep) := by
  refine ⟨?_, ?_, ?_, ?_, ?_⟩
  · obtain ⟨fields, isObject⟩ := Option.isSome_iff_exists.mp shaped.isObject
    cases ep with
    | object held => unfold expandAccess; split <;> [rfl; split <;> rfl]
    | _ => cases isObject
  · rw [get_expandAccess (by decide)]
    exact shaped.host
  · rw [get_expandAccess (by decide)]
    exact shaped.ports
  · rw [get_expandAccess (by decide)]
    exact shaped.allowedIps
  · unfold expandAccess
    split
    · exact shaped.rules
    · split
      · rename_i rules preset
        obtain ⟨fields, isObject⟩ := Option.isSome_iff_exists.mp shaped.isObject
        rw [Json.get_insert_self isObject]
        intro held found
        cases found
        exact ⟨rules, rfl, shaped_preset preset⟩
      · exact shaped.rules

theorem shaped_onEndpoints {change : Json → Json} {data : Json}
    (kept : ∀ ep, ShapedEndpoint ep → ShapedEndpoint (change ep)) (shaped : ShapedData data) :
    ShapedData (onEndpoints change data) := by
  have policies : ∀ policy, ShapedPolicy policy → ShapedPolicy (policy.modify "endpoints" (Json.mapArray change)) := by
    intro policy shapedPolicy
    constructor
    · rw [Json.get_modify]
      intro held found
      obtain ⟨list, stored, rfl⟩ := Option.map_eq_some_iff.mp found
      obtain ⟨items, rfl, each⟩ := shapedPolicy.endpoints list stored
      exact listOf_map (fun item member => kept item (each item member)) _ rfl
    · rw [Json.get_modify_of_ne (by decide)]
      exact shapedPolicy.binaries
  constructor
  intro held found
  rw [onEndpoints, Json.get_modify] at found
  obtain ⟨value, stored, rfl⟩ := Option.map_eq_some_iff.mp found
  obtain ⟨fields, rfl, each⟩ := shaped.policies value stored
  refine ⟨_, rfl, ?_⟩
  intro field member
  obtain ⟨entry, inside, rfl⟩ := List.mem_map.mp member
  exact policies entry.2 (each entry inside)

theorem shaped_proto (policy : SandboxPolicy) : ShapedData (protoToOpaDataJson policy) := by
  constructor
  intro held found
  cases found
  refine ⟨_, rfl, ?_⟩
  intro field member
  obtain ⟨⟨name, rule⟩, -, rfl⟩ := List.mem_map.mp member
  constructor
  · exact listOf_map fun endpoint _ => shaped_endpoint endpoint
  · exact listOf_map fun _ _ => trivial

/-- On the document of a message, the rules decide as the engine loaded with it does. -/
theorem runsOn_decides {policy : SandboxPolicy} (alike : Alike engine opa) (runs : RunsOn opa.networkPolicies policy) :
    ∃ data, fromProtoData policy = .ok data ∧
      (∀ input : NetworkInput, allowNetwork engine data input.document = opa.networkPolicyForRequest input) ∧
      ∀ input request, allowRequest engine data (requestInput input request) = opa.allowRequest request input := by
  obtain ⟨data, accepted, loaded⟩ := runs
  have shaped : ShapedData data := by
    unfold fromProtoData at accepted
    simp only at accepted
    split at accepted
    · cases accepted
    · cases accepted
      exact shaped_onEndpoints (fun _ => shaped_expandAccess) (shaped_proto policy)
  exact ⟨data, accepted, fun input => allowNetwork_loaded input alike shaped loaded,
    fun input request => allowRequest_loaded input request alike shaped loaded⟩

end Proto

end PolicyRules

end OpenShell.Sandbox
