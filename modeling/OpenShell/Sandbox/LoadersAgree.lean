import OpenShell.Sandbox.Alike
import OpenShell.Sandbox.Loaders

namespace OpenShell.Sandbox

open OpenShell.Policy

/-! The documents of the two loaders, field by field. -/

section Fields

theorem get_present_nil (key : String) : (present []).get key = none := rfl

theorem get_present_cons (name key : String) (value : Option Json) (pieces : List (String × Option Json)) :
    (present ((name, value) :: pieces)).get key = (if name = key then value else none).or ((present pieces).get key) := by
  cases value with
  | none =>
    rw [ite_self, Option.none_or]
    rfl
  | some value =>
    change List.lookup key ((name, value) :: _) = _
    by_cases same : name = key
    · simp [same]
    · rw [List.lookup_cons, beq_false_of_ne (Ne.symm same), if_neg same, Option.none_or]
      rfl

theorem given_getD (text : String) : (given text).getD "" = text := by
  unfold given
  by_cases empty : text = ""
  · simp [empty]
  · simp [empty]

theorem textPiece_asStr (text : String) : (textPiece text).bind Json.asStr = given text := by
  unfold textPiece
  cases given text <;> rfl

theorem listPiece_asArray {α : Type} (json : α → Json) (list : List α) :
    (listPiece json list).bind Json.asArray = if (list.map json).isEmpty then none else some (list.map json) := by
  cases list <;> rfl

theorem listPiece_getD {α : Type} (json : α → Json) (list : List α) :
    ((listPiece json list).bind Json.asArray).getD [] = list.map json := by
  cases list <;> rfl

theorem strings_asStr (texts : List String) : (texts.map Json.string).filterMap Json.asStr = texts := by
  induction texts with
  | nil => rfl
  | cons text texts ih => simpa [Json.asStr] using ih

theorem listPiece_strings (texts : List String) :
    (((listPiece .string texts).bind Json.asArray).getD []).filterMap Json.asStr = texts := by
  rw [listPiece_getD, strings_asStr]

theorem asU64_of_lt {value : Nat} (small : value < 2 ^ 64) : Json.asU64 (.integer value) = some value := by
  have bound : (value : Int) < 2 ^ 64 := by
    have cast := Int.ofNat_lt.mpr small
    simpa using cast
  unfold Json.asU64
  simp only
  split
  · rw [Int.toNat_natCast]
  · rename_i outside
    exact absurd ⟨Int.natCast_nonneg value, bound⟩ outside

theorem integers_asU64 {α : Type} {value : α → Nat}
    (read : ∀ item, Json.asU64 (.integer (value item)) = some (value item)) (list : List α) :
    (list.map fun item => Json.integer (value item)).filterMap Json.asU64 = list.map value := by
  induction list with
  | nil => rfl
  | cons item list ih =>
    rw [List.map_cons, List.filterMap_cons_some (read item), ih]
    rfl

theorem asU64_port32 (port : UInt32) : Json.asU64 (.integer port.toNat) = some port.toNat := by
  apply asU64_of_lt
  exact lt_trans port.toNat_lt (by decide)

theorem asU64_port16 (port : UInt16) : Json.asU64 (.integer port.toNat) = some port.toNat := by
  apply asU64_of_lt
  exact lt_trans port.toNat_lt (by decide)

end Fields

/-! Which policies come through both ways unchanged. -/

/-- A matcher is either a glob or a list of globs. -/
def OneForm (matcher : L7QueryMatcher) : Prop :=
  (matcher.glob ≠ "" ∧ matcher.any = []) ∨ (matcher.glob = "" ∧ matcher.any ≠ [])

def PortableRule (rule : L7Rule) : Prop := ∀ matcher ∈ (rule.allow.getD {}).query.entries, OneForm matcher.2

/-- The ports fit into 16 bits, and a single one is not zero. -/
structure PortableEndpoint (endpoint : NetworkEndpoint) : Prop where
  listed : ∀ port ∈ endpoint.ports, port ≤ 65535
  single : endpoint.ports = [] → endpoint.port ≤ 65535
  zero : endpoint.ports ≠ [0]
  queries : ∀ rule ∈ endpoint.rules, PortableRule rule

def Portable (policy : SandboxPolicy) : Prop :=
  ∀ entry ∈ policy.networkPolicies.entries, ∀ endpoint ∈ entry.2.endpoints, PortableEndpoint endpoint

/-- What an endpoint of a document shows to the checks and to the engine. -/
structure Shows (ep : Json) (endpoint : NetworkEndpoint) (host : Option String) (ports : List Nat) (rules : List Json) :
    Prop where
  isObject : ∃ fields, ep.asObject = some fields
  access : textField "access" ep = given endpoint.access
  enforcement : textField "enforcement" ep = given endpoint.enforcement
  protocol : textField "protocol" ep = given endpoint.protocol
  tls : textField "tls" ep = given endpoint.tls
  host : textField "host" ep = host
  allowedIps : strArray "allowed_ips" ep = endpoint.allowedIps
  ports : ((items "ports" ep).getD []).filterMap Json.asU64 = ports
  portless : ep.get "port" = none
  rules : items "rules" ep = if rules.isEmpty then none else some rules

section Views

theorem protoEndpoint_shows (endpoint : NetworkEndpoint) :
    Shows (protoEndpointJson endpoint) endpoint (some endpoint.host) ((protoPorts endpoint).map UInt32.toNat)
      (endpoint.rules.map protoRuleJson) := by
  constructor
  · exact ⟨_, rfl⟩
  all_goals
    simp only [textField, strArray, items, protoEndpointJson, get_present_cons, get_present_nil, String.reduceEq, if_true,
      if_false, Option.none_or, Option.or_none, textPiece_asStr, listPiece_asArray]
  · rfl
  · rw [← listPiece_asArray, listPiece_strings]
  · exact integers_asU64 asU64_port32 (protoPorts endpoint)

theorem toUInt32_clamp {port : UInt32} (small : port ≤ 65535) : (clamp port).toUInt32 = port := by
  have bound : port.toNat ≤ 65535 := UInt32.le_iff_toNat_le.mp small
  unfold clamp
  rw [if_pos small]
  apply UInt32.toNat_inj.mp
  rw [UInt16.toNat_toUInt32, UInt32.toNat_toUInt16]
  exact Nat.mod_eq_of_lt (by omega)

theorem normalizedPorts_yaml {endpoint : NetworkEndpoint} (portable : PortableEndpoint endpoint) :
    (yamlEndpoint endpoint).normalizedPorts = protoPorts endpoint := by
  have scalar : ∀ port : UInt32, port ≤ 65535 → (0 < clamp port ↔ 0 < port) := by
    intro port small
    have same : (clamp port).toNat = port.toNat := by rw [← UInt16.toNat_toUInt32, toUInt32_clamp small]
    rw [UInt16.lt_iff_toNat_lt, UInt32.lt_iff_toNat_lt, same]
    rfl
  rcases listed : endpoint.ports with _ | ⟨first, _ | ⟨second, rest⟩⟩
  · have small := portable.single listed
    by_cases positive : 0 < endpoint.port
    · simp [NetworkEndpointDef.normalizedPorts, yamlEndpoint, yamlPorts, protoPorts, listed, (scalar _ small), positive,
        toUInt32_clamp small]
    · simp [NetworkEndpointDef.normalizedPorts, yamlEndpoint, yamlPorts, protoPorts, listed, (scalar _ small), positive]
  · have small : first ≤ 65535 := portable.listed first (by simp [listed])
    have positive : 0 < first := by
      apply UInt32.pos_iff_ne_zero.mpr
      intro zero
      exact portable.zero (by rw [listed, zero])
    simp [NetworkEndpointDef.normalizedPorts, yamlEndpoint, yamlPorts, protoPorts, listed, (scalar _ small), positive,
      toUInt32_clamp small]
  · have kept : (endpoint.ports.map clamp).map UInt16.toUInt32 = endpoint.ports := by
      rw [List.map_map]
      conv_rhs => rw [← List.map_id endpoint.ports]
      apply List.map_congr_left
      intro port member
      exact toUInt32_clamp (portable.listed port member)
    have several : 1 < endpoint.ports.length := by simp [listed]
    have filled : endpoint.ports.isEmpty = false := by simp [listed]
    have clamped : (endpoint.ports.map clamp).isEmpty = false := by simp [listed]
    unfold NetworkEndpointDef.normalizedPorts protoPorts yamlEndpoint yamlPorts
    simp only [several, if_true, clamped, filled, Bool.not_false, kept]

theorem get_normalizeEndpoint {key : String} (notPort : key ≠ "port") (notPorts : key ≠ "ports") (ep : Json) :
    (normalizeEndpoint ep).get key = ep.get key := by
  unfold normalizeEndpoint
  rw [Json.get_remove_of_ne notPort]
  split
  · exact Json.get_insert_of_ne notPorts
  · rfl

theorem ports_yamlEndpoint (endpoint : NetworkEndpointDef) : items "ports" (yamlEndpointJson endpoint) =
    (listPiece (fun port => Json.integer (UInt16.toNat port)) endpoint.ports).bind Json.asArray := by
  simp only [items, yamlEndpointJson, get_present_cons, get_present_nil, String.reduceEq, if_true, if_false, Option.none_or,
    Option.or_none]

theorem scalarPort_yamlEndpoint (endpoint : NetworkEndpointDef) :
    scalarPort (yamlEndpointJson endpoint) = endpoint.port.toNat := by
  simp only [scalarPort, yamlEndpointJson, get_present_cons, get_present_nil, String.reduceEq, if_true, if_false,
    Option.none_or, Option.or_none]
  by_cases zero : endpoint.port = 0
  · simp [zero]
  · rw [if_neg zero, Option.bind_some, asU64_port16, Option.getD_some]

theorem ports_normalizeEndpoint (endpoint : NetworkEndpointDef) :
    ((items "ports" (normalizeEndpoint (yamlEndpointJson endpoint))).getD []).filterMap Json.asU64 =
      endpoint.normalizedPorts.map UInt32.toNat := by
  have listed := ports_yamlEndpoint endpoint
  have single := scalarPort_yamlEndpoint endpoint
  have removed : ∀ ep : Json, items "ports" (ep.remove "port") = items "ports" ep := by
    intro ep
    unfold items
    rw [Json.get_remove_of_ne (by decide)]
  unfold normalizeEndpoint
  rw [removed]
  cases ports : endpoint.ports with
  | nil =>
    have unlisted : nonEmptyItems "ports" (yamlEndpointJson endpoint) = false := by simp [nonEmptyItems, listed, ports, listPiece]
    by_cases zero : endpoint.port = 0
    · simp [unlisted, single, zero, listed, ports, listPiece, NetworkEndpointDef.normalizedPorts]
    · have positive : 0 < endpoint.port := UInt16.pos_iff_ne_zero.mpr zero
      have above : 0 < endpoint.port.toNat := UInt16.lt_iff_toNat_lt.mp positive
      have inserted : items "ports" ((yamlEndpointJson endpoint).insert "ports" (.array [.integer endpoint.port.toNat])) =
          some [.integer endpoint.port.toNat] := by
        unfold items yamlEndpointJson present
        rw [Json.get_insert_self rfl]
        rfl
      simp only [unlisted, single, above, Bool.not_false, Bool.true_and, decide_true, if_true, inserted, Option.getD_some,
        NetworkEndpointDef.normalizedPorts, ports, List.isEmpty_nil, Bool.not_true, Bool.false_eq_true, if_false, positive,
        List.map_cons, List.map_nil, UInt16.toNat_toUInt32]
      rw [List.filterMap_cons_some (asU64_port16 endpoint.port)]
      rfl
  | cons first rest =>
    have filled : nonEmptyItems "ports" (yamlEndpointJson endpoint) = true := by simp [nonEmptyItems, listed, ports, listPiece, Json.asArray]
    have read := integers_asU64 asU64_port16 endpoint.ports
    rw [ports] at read
    simp only [filled, Bool.not_true, Bool.false_and, Bool.false_eq_true, if_false, listed, ports, listPiece,
      List.isEmpty_cons, Option.bind_some, Json.asArray, Option.getD_some, read, NetworkEndpointDef.normalizedPorts,
      Bool.not_false, if_true, List.map_map]
    apply List.map_congr_left
    intro port _
    exact (UInt16.toNat_toUInt32 port).symm

/-- An endpoint of the YAML document, after its ports have been normalized. -/
theorem yamlEndpoint_shows (endpoint : NetworkEndpoint) (portable : PortableEndpoint endpoint) :
    Shows (normalizeEndpoint (yamlEndpointJson (yamlEndpoint endpoint))) endpoint (given endpoint.host)
      ((protoPorts endpoint).map UInt32.toNat) (endpoint.rules.map fun rule => yamlRuleJson (yamlRule rule)) := by
  constructor
  case ports => rw [ports_normalizeEndpoint, normalizedPorts_yaml portable]
  case portless => exact Json.get_remove_self
  case isObject =>
    unfold normalizeEndpoint
    split <;> exact ⟨_, rfl⟩
  all_goals
    simp only [textField, strArray, items]
    rw [get_normalizeEndpoint (by decide) (by decide)]
    simp only [yamlEndpointJson, get_present_cons, get_present_nil, String.reduceEq, if_true, if_false, Option.none_or,
      Option.or_none, textPiece_asStr, listPiece_asArray]
  case allowedIps => rw [← listPiece_asArray, listPiece_strings]; rfl
  case rules => rw [show (yamlEndpoint endpoint).rules = endpoint.rules.map yamlRule from rfl, List.map_map]; rfl
  all_goals rfl

end Views

/-! Rules. -/

section Rules

theorem matcher_cases {matcher : L7QueryMatcher} (oneForm : OneForm matcher) :
    (∃ glob, glob ≠ "" ∧ protoMatcherJson matcher = .object [("glob", .string glob)] ∧
      yamlMatcherJson (yamlMatcher matcher) = .string glob) ∨
    (∃ any : List String, any ≠ [] ∧ protoMatcherJson matcher = .object [("any", .array (any.map .string))] ∧
      yamlMatcherJson (yamlMatcher matcher) = .object [("any", .array (any.map .string))]) := by
  obtain ⟨glob, any⟩ := matcher
  rcases oneForm with ⟨filled, none⟩ | ⟨empty, filled⟩
  · left
    simp only at filled none
    subst none
    exact ⟨glob, filled, by simp [protoMatcherJson, present, listPiece, textPiece, given, filled], rfl⟩
  · right
    simp only at empty filled
    subst empty
    have listed : any.isEmpty = false := by simpa using filled
    refine ⟨any, filled, ?_, ?_⟩
    · simp [protoMatcherJson, present, listPiece, textPiece, given, filled]
    · simp [yamlMatcherJson, yamlMatcher, present, listPiece, filled]

theorem matcher_alike {matcher : L7QueryMatcher} (oneForm : OneForm matcher) :
    (queryMatcher (protoMatcherJson matcher)).normal = (queryMatcher (yamlMatcherJson (yamlMatcher matcher))).normal := by
  rcases matcher_cases oneForm with ⟨glob, filled, proto, yaml⟩ | ⟨any, _, proto, yaml⟩
  · rw [proto, yaml]
    have listed : (Json.object [("glob", .string glob)]).get "any" = none := rfl
    have text : (Json.object [("glob", .string glob)]).get "glob" = some (.string glob) := rfl
    simp [queryMatcher, QueryMatcher.normal, textField, strArray, items, listed, text, Json.asStr, filled]
  · rw [proto, yaml]

theorem errors_globWarning (loc pattern : String) : (globWarning loc pattern).errors = [] := by
  unfold globWarning
  cases checkGlobSyntax pattern <;> rfl

theorem errors_anyMatcher (loc : String) {any : List String} (filled : any ≠ []) :
    (checkMatcher loc (.object [("any", .array (any.map .string))])).errors = [] := by
  have texts : ((any.map Json.string).any fun item => item.asStr.isNone) = false := by simp [Json.asStr]
  have warnings : (Findings.collect (any.map (globWarning (loc ++ ".any")))).errors = [] := by
    apply errors_collect.mpr
    intro finding member
    obtain ⟨pattern, _, rfl⟩ := List.mem_map.mp member
    exact errors_globWarning _ _
  have listed : (any.map Json.string).isEmpty = false := by simpa using filled
  have read : (Json.object [("any", .array (any.map .string))]).get "any" = some (.array (any.map .string)) := rfl
  have globless : (Json.object [("any", .array (any.map .string))]).get "glob" = none := rfl
  simp only [checkMatcher, checkMatcherObject, checkAny, items, read, globless, Option.bind_some, Json.asArray, listed, texts,
    strings_asStr]
  simp [errors_append, warnings, errors_errorIf]

theorem errors_globMatcher (loc glob : String) : (checkMatcher loc (.object [("glob", .string glob)])).errors = [] := by
  have read : (Json.object [("glob", .string glob)]).get "glob" = some (.string glob) := rfl
  have anyless : (Json.object [("glob", .string glob)]).get "any" = none := rfl
  simp only [checkMatcher, checkMatcherObject, read, anyless, Option.bind_some, Json.asStr]
  simp [errors_globWarning]

/-- A matcher of one form has nothing wrong with it, either way it is written. -/
theorem errors_matcher (loc : String) {matcher : L7QueryMatcher} (oneForm : OneForm matcher) :
    (checkMatcher loc (protoMatcherJson matcher)).errors = [] ∧
      (checkMatcher loc (yamlMatcherJson (yamlMatcher matcher))).errors = [] := by
  rcases matcher_cases oneForm with ⟨glob, _, proto, yaml⟩ | ⟨any, filled, proto, yaml⟩
  · rw [proto, yaml]
    exact ⟨errors_globMatcher loc glob, errors_globWarning loc glob⟩
  · rw [proto, yaml]
    exact ⟨errors_anyMatcher loc filled, errors_anyMatcher loc filled⟩

section Queries

variable {β : Type} {json : β → Json} {sorted : SortedMap β} {rule : Json} {allow : Json}

theorem mapPiece_asObject : ((mapPiece json sorted).bind Json.asObject).getD [] =
    sorted.map.entries.map fun entry => (entry.1, json entry.2) := by
  unfold mapPiece
  split
  · rename_i empty
    rw [List.isEmpty_iff.mp empty]
    rfl
  · rfl

theorem errors_checkQuery (loc : String) (isAllow : rule.get "allow" = some allow)
    (isQuery : allow.get "query" = mapPiece json sorted)
    (clean : ∀ loc, ∀ entry ∈ sorted.map.entries, (checkMatcher loc (json entry.2)).errors = []) :
    (checkQuery loc rule).errors = [] := by
  unfold checkQuery
  rw [isAllow, Option.bind_some, isQuery]
  unfold mapPiece
  by_cases empty : sorted.map.entries.isEmpty = true
  · rw [if_pos empty]
    rfl
  · rw [if_neg empty]
    change (Findings.collect _).errors = []
    apply errors_collect.mpr
    intro finding member
    obtain ⟨field, inside, rfl⟩ := List.mem_map.mp member
    obtain ⟨entry, listed, rfl⟩ := List.mem_map.mp inside
    exact clean _ entry listed

end Queries

theorem mem_ofFinite {β : Type} {map : Finmap fun _ : String => β} {entry : Σ _ : String, β}
    (member : entry ∈ (SortedMap.ofFinite map).map.entries) : entry ∈ map.entries := by
  induction map using Finmap.induction_on with
  | H held => exact (SortedMap.sortEntries_perm held).mem_iff.mp member

theorem errors_protoRule (loc : String) {rule : L7Rule} (portable : PortableRule rule) :
    (checkQuery loc (protoRuleJson rule)).errors = [] := by
  have isQuery : (protoAllowJson (rule.allow.getD {})).get "query" =
      mapPiece protoMatcherJson (.ofFinite (rule.allow.getD {}).query) := by
    simp only [protoAllowJson, get_present_cons, get_present_nil, String.reduceEq, if_true, if_false, Option.none_or,
      Option.or_none]
  refine errors_checkQuery loc rfl isQuery ?_
  intro loc entry member
  exact (errors_matcher loc (portable entry (mem_ofFinite member))).1

theorem errors_yamlRule (loc : String) {rule : L7Rule} (portable : PortableRule rule) :
    (checkQuery loc (yamlRuleJson (yamlRule rule))).errors = [] := by
  have isQuery : ((yamlRuleJson (yamlRule rule)).get "allow").bind (Json.get "query") =
      mapPiece yamlMatcherJson (.ofFinite (Maps.mapFinite yamlMatcher (rule.allow.getD {}).query)) := by
    change (present _).get "query" = _
    simp only [get_present_cons, get_present_nil, String.reduceEq, if_true, if_false, Option.none_or, Option.or_none]
    rfl
  refine errors_checkQuery loc rfl isQuery ?_
  intro loc entry member
  rw [SortedMap.ofFinite_mapFinite] at member
  obtain ⟨original, inside, rfl⟩ := List.mem_map.mp member
  exact (errors_matcher loc (portable original (mem_ofFinite inside))).2

theorem sameText_given (text : String) : SameText (some text) (given text) := (given_getD text).symm

theorem rule_alike {rule : L7Rule} (portable : PortableRule rule) :
    (allowData (protoRuleJson rule)).Alike (allowData (yamlRuleJson (yamlRule rule))) := by
  have isProto : (protoRuleJson rule).get "allow" = some (protoAllowJson (rule.allow.getD {})) := rfl
  have isYaml : (yamlRuleJson (yamlRule rule)).get "allow" = some _ := rfl
  constructor
  case query =>
    simp only [allowData, isProto, isYaml, Option.getD_some, protoAllowJson, get_present_cons, get_present_nil,
      String.reduceEq, if_true, if_false, Option.none_or, Option.or_none, mapPiece_asObject]
    rw [show (yamlRule rule).allow.query = Maps.mapFinite yamlMatcher (rule.allow.getD {}).query from rfl,
      SortedMap.ofFinite_mapFinite]
    simp only [SortedMap.mapValues_map, Maps.mapValues, List.map_map]
    rw [List.forall₂_map_left_iff, List.forall₂_map_right_iff]
    apply List.forall₂_same.mpr
    intro entry member
    exact ⟨rfl, matcher_alike (portable entry (mem_ofFinite member))⟩
  all_goals
    simp only [allowData, isProto, isYaml, Option.getD_some, protoAllowJson, textField, get_present_cons, get_present_nil,
      String.reduceEq, if_true, if_false, Option.none_or, Option.or_none, textPiece_asStr]
    exact sameText_given _

end Rules

/-! Endpoints. -/

section Endpoints

/-- What the checks ask of an endpoint, besides its matchers. -/
structure EndpointPasses (endpoint : NetworkEndpoint) : Prop where
  host : (checkHost "" endpoint.host).errors = []
  exclusive : endpoint.rules = [] ∨ endpoint.access = ""
  allowed : endpoint.protocol = "" ∨ endpoint.rules ≠ [] ∨ endpoint.access ≠ ""
  audited : endpoint.protocol ≠ "sql" ∨ endpoint.enforcement ≠ "enforce"

theorem errors_checkHost (loc host : String) : (checkHost loc host).errors = [] ↔ (checkHost "" host).errors = [] := by
  unfold checkHost warningIf
  split_ifs <;> simp [Findings.error, Findings.warning]

variable {ep : Json} {endpoint : NetworkEndpoint} {host : Option String} {ports : List Nat} {rules : List Json}

theorem Shows.field_host (shows : Shows ep endpoint host ports rules) (named : host.getD "" = endpoint.host) :
    field "host" ep = endpoint.host := by
  rw [← named, ← shows.host]
  rfl

theorem field_of_given {key text : String} (shown : textField key ep = given text) : field key ep = text := by
  rw [← given_getD text, ← shown]
  rfl

theorem errors_warningIf (bad : Bool) (text : String) : (warningIf bad text).errors = [] := by
  cases bad <;> rfl

theorem errors_checkRules (loc : String) (clean : ∀ rule ∈ rules, ∀ loc, (checkQuery loc rule).errors = []) :
    (checkRules loc rules).errors = [] := by
  unfold checkRules
  apply errors_collect.mpr
  intro finding member
  obtain ⟨⟨rule, index⟩, numbered, rfl⟩ := List.mem_map.mp member
  have method : (checkMethod loc rule).errors = [] := by
    unfold checkMethod
    split
    · rfl
    · exact errors_warningIf _ _
  have listed : rule ∈ rules := List.mem_of_getElem? (List.mk_mem_zipIdx_iff_getElem?.mp numbered)
  rw [errors_append, method, clean rule listed]
  rfl

theorem errors_shown (loc : String) (shows : Shows ep endpoint host ports rules) (named : host.getD "" = endpoint.host)
    (ruled : rules = [] ↔ endpoint.rules = []) (clean : ∀ rule ∈ rules, ∀ loc, (checkQuery loc rule).errors = []) :
    (checkEndpoint loc ep).errors = [] ↔ EndpointPasses endpoint := by
  have hasRules : nonEmptyItems "rules" ep = !rules.isEmpty := by
    unfold nonEmptyItems
    rw [shows.rules]
    cases rules <;> rfl
  have listed : (items "rules" ep).any (·.isEmpty) = false := by
    rw [shows.rules]
    cases rules <;> rfl
  have unsplit : scalarPort ep = 0 := by
    unfold scalarPort
    rw [shows.portless]
    rfl
  have queries : (checkRules loc ((items "rules" ep).getD [])).errors = [] := by
    apply errors_checkRules
    rw [shows.rules]
    cases rules with
    | nil => simp
    | cons rule rules => exact clean
  have last : ∀ asked : Bool, (if asked then checkRules loc ((items "rules" ep).getD []) else {}).errors = [] := by
    intro asked
    cases asked with
    | false => rfl
    | true => exact queries
  have isEmpty : rules.isEmpty = endpoint.rules.isEmpty := by
    rw [Bool.eq_iff_iff, List.isEmpty_iff, List.isEmpty_iff, ruled]
  unfold checkEndpoint
  simp only [errors_append, List.append_eq_nil_iff, errors_errorIf, errors_warningIf, last, listed, hasRules, unsplit, isEmpty,
    shows.field_host named, field_of_given shows.protocol, field_of_given shows.access, field_of_given shows.enforcement,
    errors_checkHost loc]
  constructor
  · rintro ⟨⟨⟨⟨⟨⟨⟨⟨host, _⟩, exclusive⟩, allowed⟩, _⟩, _⟩, audited⟩, _⟩, _⟩
    refine ⟨host, ?_, ?_, ?_⟩
    · simpa [or_iff_not_imp_left] using exclusive
    · simpa [or_iff_not_imp_left] using allowed
    · simpa [or_iff_not_imp_left] using audited
  · intro passes
    refine ⟨⟨⟨⟨⟨⟨⟨⟨passes.host, ?_⟩, ?_⟩, ?_⟩, trivial⟩, trivial⟩, ?_⟩, trivial⟩, trivial⟩
    · rfl
    · simpa [or_iff_not_imp_left] using passes.exclusive
    · simpa [or_iff_not_imp_left] using passes.allowed
    · simpa [or_iff_not_imp_left] using passes.audited

theorem errors_protoEndpoint (loc : String) (portable : PortableEndpoint endpoint) :
    (checkEndpoint loc (protoEndpointJson endpoint)).errors = [] ↔ EndpointPasses endpoint := by
  refine errors_shown loc (protoEndpoint_shows endpoint) rfl List.map_eq_nil_iff ?_
  intro json member
  obtain ⟨rule, inside, rfl⟩ := List.mem_map.mp member
  intro loc
  exact errors_protoRule loc (portable.queries rule inside)

theorem errors_yamlEndpoint (loc : String) (portable : PortableEndpoint endpoint) :
    (checkEndpoint loc (normalizeEndpoint (yamlEndpointJson (yamlEndpoint endpoint)))).errors = [] ↔
      EndpointPasses endpoint := by
  refine errors_shown loc (yamlEndpoint_shows endpoint portable) (given_getD _) List.map_eq_nil_iff ?_
  intro json member
  obtain ⟨rule, inside, rfl⟩ := List.mem_map.mp member
  intro loc
  exact errors_yamlRule loc (portable.queries rule inside)

/-- What the rules of the policy read of an endpoint after the presets have been expanded. -/
theorem endpointData_shown (shows : Shows ep endpoint host ports rules) :
    endpointData (expandAccess ep) =
      { host := host
        ports := ports
        protocol := given endpoint.protocol
        tls := given endpoint.tls
        enforcement := given endpoint.enforcement
        rules := (if rules.isEmpty then (presetRules endpoint.access).getD [] else rules).map allowData
        allowedIps := endpoint.allowedIps } := by
  have texts : ∀ key, key ≠ "rules" → textField key (expandAccess ep) = textField key ep := by
    intro key other
    unfold textField
    rw [get_expandAccess other]
  have lists : ∀ key, key ≠ "rules" → items key (expandAccess ep) = items key ep := by
    intro key other
    unfold items
    rw [get_expandAccess other]
  have expanded : (items "rules" (expandAccess ep)).getD [] =
      if rules.isEmpty then (presetRules endpoint.access).getD [] else rules := by
    have ruled := shows.rules
    obtain ⟨fields, isObject⟩ := shows.isObject
    unfold expandAccess nonEmptyItems
    rw [ruled, field_of_given shows.access]
    cases rules with
    | nil =>
      cases presetRules endpoint.access with
      | none => simpa using congrArg (·.getD []) ruled
      | some preset => simp [items, Json.get_insert_self isObject, Json.asArray]
    | cons rule rules => simpa using congrArg (·.getD []) ruled
  unfold endpointData strArray
  rw [texts _ (by decide), texts _ (by decide), texts _ (by decide), texts _ (by decide),
    lists "ports" (by decide), lists "allowed_ips" (by decide), expanded, shows.host, shows.ports, shows.protocol, shows.tls, shows.enforcement, ← shows.allowedIps]
  rfl

theorem AllowData.Alike.refl (allow : AllowData) : allow.Alike allow :=
  ⟨rfl, rfl, rfl, List.forall₂_same.mpr fun _ _ => ⟨rfl, rfl⟩⟩

theorem endpoint_alike (portable : PortableEndpoint endpoint) :
    (endpointData (expandAccess (protoEndpointJson endpoint))).Alike
      (endpointData (expandAccess (normalizeEndpoint (yamlEndpointJson (yamlEndpoint endpoint))))) := by
  rw [endpointData_shown (protoEndpoint_shows endpoint), endpointData_shown (yamlEndpoint_shows endpoint portable)]
  refine ⟨sameText_given _, rfl, rfl, rfl, rfl, ?_, rfl⟩
  simp only [List.isEmpty_map]
  by_cases empty : endpoint.rules.isEmpty = true
  · rw [if_pos empty, if_pos empty]
    exact List.forall₂_same.mpr fun _ _ => .refl _
  · rw [if_neg empty, if_neg empty, List.map_map, List.map_map, List.forall₂_map_left_iff, List.forall₂_map_right_iff]
    apply List.forall₂_same.mpr
    intro rule member
    exact rule_alike (portable.queries rule member)

end Endpoints

/-! Documents. -/

section Documents

/-- The document lists the policies in the order of their names, with their endpoints as `json` writes them. -/
def Lists (data : Json) (policy : SandboxPolicy) (json : NetworkEndpoint → Json) : Prop :=
  List.Forall₂ (fun shown (entry : Σ _ : String, NetworkPolicyRule) => shown.1 = entry.1 ∧
      (items "endpoints" shown.2).getD [] = entry.2.endpoints.map json ∧
      ((items "binaries" shown.2).getD []).filterMap (textField "path") = entry.2.binaries.map (·.path))
    (policiesOf data) (SortedMap.ofMap policy.networkPolicies).map.entries

variable {data : Json} {policy : SandboxPolicy} {json other : NetworkEndpoint → Json}

theorem textField_paths {α : Type} (path : α → String) (list : List α) :
    (list.map fun item => Json.object [("path", .string (path item))]).filterMap (textField "path") = list.map path := by
  induction list with
  | nil => rfl
  | cons item list ih =>
    have here : textField "path" (.object [("path", .string (path item))]) = some (path item) := rfl
    rw [List.map_cons, List.filterMap_cons_some here, ih]
    rfl

theorem protoData_lists (policy : SandboxPolicy) : Lists (protoToOpaDataJson policy) policy protoEndpointJson := by
  have named : policiesOf (protoToOpaDataJson policy) =
      (SortedMap.ofMap policy.networkPolicies).map.entries.map fun entry => (entry.1, protoPolicyJson entry.2) := rfl
  unfold Lists
  rw [named, List.forall₂_map_left_iff]
  apply List.forall₂_same.mpr
  intro entry _
  exact ⟨rfl, rfl, textField_paths NetworkBinary.path entry.2.binaries⟩

theorem yamlData_lists (policy : SandboxPolicy) :
    Lists (policyFileJson (fromProto policy)) policy fun endpoint => yamlEndpointJson (yamlEndpoint endpoint) := by
  have named : policiesOf (policyFileJson (fromProto policy)) =
      (SortedMap.ofMap policy.networkPolicies).map.entries.map fun entry =>
        (entry.1, yamlPolicyJson (yamlPolicyRule entry.2)) := by
    simp only [policiesOf, policyFileJson, get_present_cons, get_present_nil, String.reduceEq, if_true, if_false,
      Option.none_or, Option.or_none, mapPiece_asObject]
    simp only [fromProto, SortedMap.mapValues_map, Maps.mapValues, List.map_map]
    rfl
  unfold Lists
  rw [named, List.forall₂_map_left_iff]
  apply List.forall₂_same.mpr
  intro entry _
  refine ⟨rfl, ?_, ?_⟩
  · simp only [items, yamlPolicyJson, get_present_cons, get_present_nil, String.reduceEq, if_true, if_false, Option.none_or,
      Option.or_none, listPiece_getD, yamlPolicyRule, List.map_map]
    rfl
  · simp only [items, yamlPolicyJson, get_present_cons, get_present_nil, String.reduceEq, if_true, if_false, Option.or_none,
      listPiece_getD, yamlPolicyRule, List.map_map]
    exact textField_paths NetworkBinary.path entry.2.binaries

theorem onEndpoints_lists (change : Json → Json) (lists : Lists data policy json) :
    Lists (onEndpoints change data) policy fun endpoint => change (json endpoint) := by
  unfold Lists
  rw [policiesOf_onEndpoints, List.forall₂_map_left_iff]
  refine lists.imp ?_
  rintro shown entry ⟨name, endpoints, binaries⟩
  refine ⟨name, ?_, ?_⟩
  · rw [items_modify, endpoints, List.map_map]
    rfl
  · unfold items
    rw [Json.get_modify_of_ne (by decide)]
    exact binaries

/-- Every endpoint of the policy passes. -/
def PolicyPasses (policy : SandboxPolicy) : Prop :=
  ∀ entry ∈ policy.networkPolicies.entries, ∀ endpoint ∈ entry.2.endpoints, EndpointPasses endpoint

variable {Passes : NetworkEndpoint → Prop}

theorem errors_checkPolicy (name : String) {shown : Json} {endpoints : List NetworkEndpoint}
    (listed : (items "endpoints" shown).getD [] = endpoints.map json)
    (checked : ∀ endpoint ∈ endpoints, ∀ loc, (checkEndpoint loc (json endpoint)).errors = [] ↔ Passes endpoint) :
    (checkPolicy name shown).errors = [] ↔ ∀ endpoint ∈ endpoints, Passes endpoint := by
  unfold checkPolicy
  rw [errors_collect, listed]
  constructor
  · intro clean endpoint member
    obtain ⟨index, found⟩ := List.getElem?_of_mem (List.mem_map_of_mem (f := json) member)
    have numbered := List.mk_mem_zipIdx_iff_getElem?.mpr found
    exact (checked endpoint member _).mp (clean _ (List.mem_map.mpr ⟨_, numbered, rfl⟩))
  · intro passes finding member
    obtain ⟨⟨ep, index⟩, numbered, rfl⟩ := List.mem_map.mp member
    have inside := List.mem_of_getElem? (List.mk_mem_zipIdx_iff_getElem?.mp numbered)
    obtain ⟨endpoint, original, rfl⟩ := List.mem_map.mp inside
    exact (checked endpoint original _).mpr (passes endpoint original)

theorem errors_validate (lists : Lists data policy json)
    (checked : ∀ entry ∈ policy.networkPolicies.entries, ∀ endpoint ∈ entry.2.endpoints, ∀ loc,
      (checkEndpoint loc (json endpoint)).errors = [] ↔ Passes endpoint) :
    (validateL7Policies data).errors = [] ↔
      ∀ entry ∈ policy.networkPolicies.entries, ∀ endpoint ∈ entry.2.endpoints, Passes endpoint := by
  have sorted : ∀ entry, entry ∈ (SortedMap.ofMap policy.networkPolicies).map.entries ↔
      entry ∈ policy.networkPolicies.entries :=
    fun entry => (SortedMap.sortEntries_perm policy.networkPolicies).mem_iff
  simp only [← sorted] at checked ⊢
  change (Findings.collect ((policiesOf data).map _)).errors = [] ↔ _
  unfold Lists at lists
  rw [errors_collect]
  generalize policiesOf data = shown at lists ⊢
  generalize (SortedMap.ofMap policy.networkPolicies).map.entries = entries at lists checked ⊢
  induction lists with
  | nil => simp
  | cons here _ ih =>
    rw [List.forall_mem_cons] at checked
    rw [List.map_cons, List.forall_mem_cons, List.forall_mem_cons, ih checked.2,
      errors_checkPolicy _ here.2.1 checked.1]

/-- The object the engine iterates over. -/
def loadedPolicies (policy : SandboxPolicy) (json : NetworkEndpoint → Json) : PolicyObject where
  entries := (SortedMap.ofMap policy.networkPolicies).map.entries.map fun entry =>
    (entry.1, { endpoints := entry.2.endpoints.map fun endpoint => endpointData (json endpoint)
                binaries := entry.2.binaries.map (·.path) })
  sorted := List.pairwise_map.mpr (SortedMap.ofMap policy.networkPolicies).sorted

/-- The object of a file, which is not written where there are no policies. -/
def filePolicies (policy : SandboxPolicy) (json : NetworkEndpoint → Json) : PolicyObject :=
  { loadedPolicies policy json with empty := false, none_listed := nofun }

theorem entries_of_lists (lists : Lists data policy json) :
    (loadedPolicies policy json).entries = (policiesOf data).map fun entry => (entry.1, policyData entry.2) := by
  change (SortedMap.ofMap policy.networkPolicies).map.entries.map _ = _
  unfold Lists at lists
  generalize policiesOf data = shown at lists ⊢
  generalize (SortedMap.ofMap policy.networkPolicies).map.entries = entries at lists ⊢
  induction lists with
  | nil => rfl
  | cons here _ ih =>
    obtain ⟨name, endpoints, binaries⟩ := here
    rw [List.map_cons, List.map_cons, ih, policyData, endpoints, binaries, name, List.map_map]
    rfl

theorem count_onEndpoints (change : Json → Json) (data : Json) :
    Rego.count ((onEndpoints change data).get "network_policies") = Rego.count (data.get "network_policies") := by
  unfold onEndpoints
  rw [Json.get_modify]
  cases data.get "network_policies" with
  | none => rfl
  | some value =>
    cases value with
    | object fields => simp [Json.mapObject, Rego.count]
    | _ => rfl

theorem loaded_proto (change : Json → Json) (policy : SandboxPolicy) :
    Loaded (onEndpoints change (protoToOpaDataJson policy))
      (loadedPolicies policy fun endpoint => change (protoEndpointJson endpoint)) where
  entries := entries_of_lists (onEndpoints_lists change (protoData_lists policy))
  empty := by
    rw [count_onEndpoints]
    show List.isEmpty (List.map _ _) = (some (List.length (List.map _ _)) == some 0)
    cases (SortedMap.ofMap policy.networkPolicies).map.entries with
    | nil => rfl
    | cons entry entries => rfl

theorem loaded_yaml (first second : Json → Json) (policy : SandboxPolicy) :
    Loaded (onEndpoints first (onEndpoints second (policyFileJson (fromProto policy))))
      (filePolicies policy fun endpoint => first (second (yamlEndpointJson (yamlEndpoint endpoint)))) where
  entries := entries_of_lists (onEndpoints_lists first (onEndpoints_lists second (yamlData_lists policy)))
  empty := by
    have named : (policyFileJson (fromProto policy)).get "network_policies" =
        mapPiece yamlPolicyJson (fromProto policy).networkPolicies := by
      simp only [policyFileJson, get_present_cons, get_present_nil, String.reduceEq, if_true, if_false, Option.none_or,
        Option.or_none]
    rw [count_onEndpoints, count_onEndpoints, named, mapPiece, sortedJson]
    cases (fromProto policy).networkPolicies.map.entries with
    | nil => rfl
    | cons entry entries => rfl

theorem loaded_alike (same : ∀ entry ∈ policy.networkPolicies.entries, ∀ endpoint ∈ entry.2.endpoints,
      (endpointData (json endpoint)).Alike (endpointData (other endpoint))) :
    (loadedPolicies policy json).Alike (loadedPolicies policy other) := by
  unfold PolicyObject.Alike loadedPolicies
  rw [List.forall₂_map_left_iff, List.forall₂_map_right_iff]
  apply List.forall₂_same.mpr
  intro entry member
  have inside := (SortedMap.sortEntries_perm policy.networkPolicies).mem_iff.mp member
  refine ⟨rfl, ?_, rfl⟩
  rw [List.forall₂_map_left_iff, List.forall₂_map_right_iff]
  exact List.forall₂_same.mpr (same entry inside)

end Documents

/-! Both ways. -/

section Loaders

variable {Document : Type} (values : YamlValues Document) (policy : SandboxPolicy)

/-- Both documents are refused, or the engines that run on them agree. -/
def LoadersAgree (text : Document) : Prop :=
  (∃ reason other, fromProtoData policy = .error reason ∧ fromStringsData values text = .error other) ∨
  ∃ data other first second, fromProtoData policy = .ok data ∧ fromStringsData values text = .ok other ∧
    Loaded data first ∧ Loaded other second ∧
    ∀ builtins : Builtins, builtins.Lawful → EnginesAgree ⟨builtins, first⟩ ⟨builtins, second⟩

/-- A policy that fits into the file comes through both ways the same. -/
theorem loaders_agree (portable : Portable policy) :
    ∃ text, serializeSandboxPolicy values.toYamlLibrary policy = .ok text ∧ LoadersAgree values policy text := by
  obtain ⟨text, written, _⟩ := values.round_trip (fromProto policy)
  have serialized : serializeSandboxPolicy values.toYamlLibrary policy = .ok text := by
    unfold serializeSandboxPolicy
    rw [written]
  refine ⟨text, serialized, ?_⟩
  have proto := protoData_lists policy
  have yaml := onEndpoints_lists normalizeEndpoint (yamlData_lists policy)
  have protoErrors : _ ↔ PolicyPasses policy := errors_validate proto fun entry member endpoint inside loc =>
    errors_protoEndpoint loc (portable entry member endpoint inside)
  have yamlErrors : _ ↔ PolicyPasses policy := errors_validate yaml fun entry member endpoint inside loc =>
    errors_yamlEndpoint loc (portable entry member endpoint inside)
  unfold LoadersAgree fromProtoData fromStringsData preprocess normalizeEndpointPorts
  rw [values.value_round_trip _ _ written]
  by_cases passes : PolicyPasses policy
  · right
    have alike : (loadedPolicies policy fun endpoint => expandAccess (protoEndpointJson endpoint)).Alike
        (filePolicies policy fun endpoint =>
          expandAccess (normalizeEndpoint (yamlEndpointJson (yamlEndpoint endpoint)))) :=
      loaded_alike fun entry member endpoint inside => endpoint_alike (portable entry member endpoint inside)
    refine ⟨_, _, _, _, ?_, ?_, loaded_proto expandAccess policy, loaded_yaml expandAccess normalizeEndpoint policy,
      fun builtins lawful => enginesAgree_of_alike alike lawful⟩
    · simp only [protoErrors.mpr passes, List.isEmpty_nil, Bool.not_true, Bool.false_eq_true, if_false]
      rfl
    · simp only [yamlErrors.mpr passes, List.isEmpty_nil, Bool.not_true, Bool.false_eq_true, if_false]
      rfl
  · left
    refine ⟨_, _, if_pos ?_, if_pos ?_⟩
    · simpa using fun clean => passes (protoErrors.mp clean)
    · simpa using fun clean => passes (yamlErrors.mp clean)

/-! Policies that do not fit. -/

section Unfit

def plainValues : YamlValues PolicyFile where
  fromStr file := .ok file.written
  toStr file := .ok file
  round_trip file := ⟨file, rfl, rfl⟩
  readValue file := .ok (policyFileJson file)
  value_round_trip file text same := by
    cases same
    rfl

/-- Whether a document allows a connection. -/
def dataAllows (data : Json) (input : NetworkInput) : Bool :=
  (policiesOf data).any fun entry => OpaEngine.policyMatches
    ⟨plainBuiltins, { entries := [], sorted := .nil }⟩ input (policyData entry.2)

theorem dataAllows_of_loaded {data : Json} {policies : PolicyObject} (loaded : Loaded data policies) (input : NetworkInput) :
    OpaEngine.networkPolicyForRequest ⟨plainBuiltins, policies⟩ input = dataAllows data input := by
  unfold OpaEngine.networkPolicyForRequest dataAllows
  rw [show policies.entries = (policiesOf data).map _ from loaded.entries, List.any_map]
  rfl

/-- Both loaders refuse the policy, or the engines allow the same connections. -/
def AllowSame (policy : SandboxPolicy) : Prop :=
  (∃ reason other, fromProtoData policy = .error reason ∧ fromStringsData plainValues (fromProto policy) = .error other) ∨
  ∃ data other first second, fromProtoData policy = .ok data ∧
    fromStringsData plainValues (fromProto policy) = .ok other ∧ Loaded data first ∧ Loaded other second ∧
    ∀ input, OpaEngine.networkPolicyForRequest ⟨plainBuiltins, first⟩ input =
      OpaEngine.networkPolicyForRequest ⟨plainBuiltins, second⟩ input

def yamlData (policy : SandboxPolicy) : Json := normalizeEndpointPorts (policyFileJson (fromProto policy))

theorem fromProto_refused {policy : SandboxPolicy} (wrong : (validateL7Policies (protoToOpaDataJson policy)).errors.isEmpty = false)
    (right : (validateL7Policies (yamlData policy)).errors.isEmpty = true) : ¬ AllowSame policy := by
  have accepted : fromStringsData plainValues (fromProto policy) = .ok (expandAccessPresets (yamlData policy)) :=
    if_neg (by unfold yamlData at right; simpa using right)
  rintro (⟨_, _, _, refused⟩ | ⟨_, _, _, _, loaded, _⟩)
  · rw [accepted] at refused
    cases refused
  · unfold fromProtoData at loaded
    simp [wrong] at loaded

theorem answers_differ {policy : SandboxPolicy} (input : NetworkInput)
    (right : (validateL7Policies (protoToOpaDataJson policy)).errors.isEmpty = true)
    (differ : dataAllows (expandAccessPresets (protoToOpaDataJson policy)) input ≠
      dataAllows (expandAccessPresets (yamlData policy)) input) : ¬ AllowSame policy := by
  have accepted : fromProtoData policy = .ok (expandAccessPresets (protoToOpaDataJson policy)) :=
    if_neg (by simpa using right)
  rintro (⟨_, _, refused, _⟩ | ⟨data, other, first, second, isData, isOther, loaded, reloaded, same⟩)
  · rw [accepted] at refused
    cases refused
  · rw [accepted] at isData
    cases isData
    have isYaml : other = expandAccessPresets (yamlData policy) := by
      change preprocess _ = _ at isOther
      unfold preprocess at isOther
      simp only at isOther
      split at isOther
      · cases isOther
      · cases isOther
        rfl
    subst isYaml
    have answers := same input
    rw [dataAllows_of_loaded loaded, dataAllows_of_loaded reloaded] at answers
    exact differ answers

def curlPolicy (endpoint : NetworkEndpoint) : SandboxPolicy :=
  { networkPolicies := AList.singleton "api" { endpoints := [endpoint], binaries := [{ path := "/usr/bin/curl" }] } }

def curlTo (host : String) (port : UInt16) : NetworkInput := { host := host, port := port, binaryPath := "/usr/bin/curl" }

def twoForms : L7Rule :=
  { allow := some { method := "GET", path := "/", query := Finmap.singleton "tag" { glob := "a", any := ["b"] } } }

/-- A matcher of both forms is refused one way only. Through the file a port is clamped, and a port or a host
that says nothing is lost. -/
theorem loaders_differ :
    ¬ AllowSame (curlPolicy { host := "a.test", ports := [80], protocol := "rest", rules := [twoForms] }) ∧
      ¬ AllowSame (curlPolicy { host := "a.test", ports := [70000] }) ∧
      ¬ AllowSame (curlPolicy { host := "a.test", ports := [0] }) ∧
      ¬ AllowSame (curlPolicy { ports := [80] }) := by
  refine ⟨fromProto_refused ?_ ?_, answers_differ (curlTo "a.test" 65535) ?_ ?_, answers_differ (curlTo "a.test" 0) ?_ ?_,
    answers_differ (curlTo "" 80) ?_ ?_⟩
  all_goals decide +kernel

theorem read_only_agrees :
    ∃ text, serializeSandboxPolicy plainValues.toYamlLibrary
        (curlPolicy { host := "a.test", ports := [443], protocol := "rest", access := "read-only" }) = .ok text ∧
      LoadersAgree plainValues
        (curlPolicy { host := "a.test", ports := [443], protocol := "rest", access := "read-only" }) text := by
  apply loaders_agree
  intro entry member endpoint inside
  cases List.mem_singleton.mp member
  cases List.mem_singleton.mp inside
  have small : (443 : UInt32) ≤ 65535 := by decide
  refine ⟨fun port listed => ?_, by decide, by decide, by simp⟩
  rw [List.mem_singleton.mp listed]
  exact small

end Unfit

end Loaders

end OpenShell.Sandbox
