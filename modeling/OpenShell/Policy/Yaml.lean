import OpenShell.Lib.Maps
import OpenShell.Policy.Model

namespace OpenShell.Policy

/-! The YAML form of a policy, and the conversions between it and the messages. -/

structure FilesystemDef where
  includeWorkdir : Bool := false
  readOnly : List String := []
  readWrite : List String := []

structure LandlockDef where
  compatibility : String := ""

structure ProcessDef where
  runAsUser : String := ""
  runAsGroup : String := ""

structure QueryAnyDef where
  any : List String := []

inductive QueryMatcherDef where
  | glob (pattern : String)
  | any (def_ : QueryAnyDef)

structure L7AllowDef where
  method : String := ""
  path : String := ""
  command : String := ""
  query : Finmap (fun _ : String => QueryMatcherDef) := ∅

structure L7RuleDef where
  allow : L7AllowDef

structure NetworkEndpointDef where
  host : String := ""
  port : UInt16 := 0
  ports : List UInt16 := []
  protocol : String := ""
  tls : String := ""
  enforcement : String := ""
  access : String := ""
  rules : List L7RuleDef := []
  allowedIps : List String := []

structure NetworkBinaryDef where
  path : String
  harness : Bool := false

structure NetworkPolicyRuleDef where
  name : String := ""
  endpoints : List NetworkEndpointDef := []
  binaries : List NetworkBinaryDef := []

structure PolicyFile where
  version : UInt32
  filesystemPolicy : Option FilesystemDef := none
  landlock : Option LandlockDef := none
  process : Option ProcessDef := none
  networkPolicies : SortedMap NetworkPolicyRuleDef

/-! YAML to messages. -/

def QueryMatcherDef.toProto : QueryMatcherDef → L7QueryMatcher
  | glob pattern => { glob := pattern, any := [] }
  | any def_ => { glob := "", any := def_.any }

def L7RuleDef.toProto (rule : L7RuleDef) : L7Rule :=
  { allow := some
      { method := rule.allow.method
        path := rule.allow.path
        command := rule.allow.command
        query := Maps.mapFinite QueryMatcherDef.toProto rule.allow.query } }

/-- A list of ports counts before a single port. -/
def NetworkEndpointDef.normalizedPorts (endpoint : NetworkEndpointDef) : List UInt32 :=
  if !endpoint.ports.isEmpty then endpoint.ports.map UInt16.toUInt32
  else if 0 < endpoint.port then [endpoint.port.toUInt32]
  else []

def NetworkEndpointDef.toProto (endpoint : NetworkEndpointDef) : NetworkEndpoint :=
  { host := endpoint.host
    port := endpoint.normalizedPorts.headD 0
    ports := endpoint.normalizedPorts
    protocol := endpoint.protocol
    tls := endpoint.tls
    enforcement := endpoint.enforcement
    access := endpoint.access
    rules := endpoint.rules.map L7RuleDef.toProto
    allowedIps := endpoint.allowedIps }

def NetworkPolicyRuleDef.toProto (key : String) (rule : NetworkPolicyRuleDef) : NetworkPolicyRule :=
  { name := if rule.name.isEmpty then key else rule.name
    endpoints := rule.endpoints.map NetworkEndpointDef.toProto
    binaries := rule.binaries.map fun binary => { path := binary.path } }

def toProto (raw : PolicyFile) : SandboxPolicy :=
  { version := raw.version
    filesystem := raw.filesystemPolicy.map fun fs => ⟨fs.includeWorkdir, fs.readOnly, fs.readWrite⟩
    landlock := raw.landlock.map fun ll => ⟨ll.compatibility⟩
    process := raw.process.map fun p => ⟨p.runAsUser, p.runAsGroup⟩
    networkPolicies := Maps.mapValues NetworkPolicyRuleDef.toProto raw.networkPolicies.map }

/-! Messages to YAML. -/

def yamlMatcher (matcher : L7QueryMatcher) : QueryMatcherDef :=
  if !matcher.any.isEmpty then .any ⟨matcher.any⟩ else .glob matcher.glob

def yamlRule (rule : L7Rule) : L7RuleDef :=
  let allow := rule.allow.getD {}
  { allow :=
      { method := allow.method
        path := allow.path
        command := allow.command
        query := Maps.mapFinite yamlMatcher allow.query } }

def clamp (port : UInt32) : UInt16 := (if port ≤ 65535 then port else 65535).toUInt16

/-- One port is written as a scalar, several as a list. -/
def yamlPorts (endpoint : NetworkEndpoint) : UInt16 × List UInt16 :=
  if 1 < endpoint.ports.length then (0, endpoint.ports.map clamp)
  else (clamp (endpoint.ports.headD endpoint.port), [])

def yamlEndpoint (endpoint : NetworkEndpoint) : NetworkEndpointDef :=
  { host := endpoint.host
    port := (yamlPorts endpoint).1
    ports := (yamlPorts endpoint).2
    protocol := endpoint.protocol
    tls := endpoint.tls
    enforcement := endpoint.enforcement
    access := endpoint.access
    rules := endpoint.rules.map yamlRule
    allowedIps := endpoint.allowedIps }

def yamlPolicyRule (rule : NetworkPolicyRule) : NetworkPolicyRuleDef :=
  { name := rule.name
    endpoints := rule.endpoints.map yamlEndpoint
    binaries := rule.binaries.map fun binary => { path := binary.path, harness := false } }

def yamlProcess (process : ProcessPolicy) : Option ProcessDef :=
  if process.runAsUser.isEmpty && process.runAsGroup.isEmpty then none
  else some ⟨process.runAsUser, process.runAsGroup⟩

def fromProto (policy : SandboxPolicy) : PolicyFile :=
  { version := policy.version
    filesystemPolicy := policy.filesystem.map fun fs => ⟨fs.includeWorkdir, fs.readOnly, fs.readWrite⟩
    landlock := policy.landlock.map fun ll => ⟨ll.compatibility⟩
    process := policy.process.bind yamlProcess
    networkPolicies := (SortedMap.ofMap policy.networkPolicies).mapValues yamlPolicyRule }

/-! Texts. -/

/-- A file as it is read back: the flag of a binary is not written. -/
def PolicyFile.written (file : PolicyFile) : PolicyFile :=
  { file with networkPolicies := file.networkPolicies.mapValues fun rule =>
      { rule with binaries := rule.binaries.map fun binary => { binary with harness := false } } }

/-- The YAML library, which is outside the repository. It gives a file back as it was written. -/
structure YamlLibrary (Document : Type) where
  fromStr : Document → Except String PolicyFile
  toStr : PolicyFile → Except String Document
  round_trip : ∀ file, ∃ text, toStr file = .ok text ∧ fromStr text = .ok file.written

variable {Document : Type}

def parseSandboxPolicy (library : YamlLibrary Document) (yaml : Document) : Except String SandboxPolicy :=
  match library.fromStr yaml with
  | .ok raw => .ok (toProto raw)
  | .error _ => .error "failed to parse sandbox policy YAML"

def serializeSandboxPolicy (library : YamlLibrary Document) (policy : SandboxPolicy) : Except String Document :=
  match library.toStr (fromProto policy) with
  | .ok text => .ok text
  | .error _ => .error "failed to serialize policy to YAML"

/-! What comes back of a file. -/

section RoundTrip

/-- Parsing, writing and parsing again gives the same policy. -/
def RoundTrips (library : YamlLibrary Document) (yaml : Document) : Prop :=
  ∃ policy text again, parseSandboxPolicy library yaml = .ok policy ∧ serializeSandboxPolicy library policy = .ok text ∧
    parseSandboxPolicy library text = .ok again ∧ again.Same policy

/-- No section and no list of the file is there and says nothing. -/
structure PolicyFile.Telling (file : PolicyFile) : Prop where
  process : file.process ≠ some ⟨"", ""⟩
  ports : ∀ entry ∈ file.networkPolicies.map.entries, ∀ endpoint ∈ entry.2.endpoints, endpoint.ports ≠ [0]

theorem matcher_again (matcher : QueryMatcherDef) : (yamlMatcher matcher.toProto).toProto = matcher.toProto := by
  cases matcher with
  | glob pattern => rfl
  | any def_ =>
    obtain ⟨any⟩ := def_
    cases any <;> rfl

theorem rule_again (rule : L7RuleDef) : (yamlRule rule.toProto).toProto = rule.toProto := by
  have query : Maps.mapFinite QueryMatcherDef.toProto
      (Maps.mapFinite yamlMatcher (Maps.mapFinite QueryMatcherDef.toProto rule.allow.query)) =
        Maps.mapFinite QueryMatcherDef.toProto rule.allow.query := by
    simp only [Maps.mapFinite_mapFinite, matcher_again]
  simp only [L7RuleDef.toProto, yamlRule, Option.getD_some, query]

theorem clamp_toUInt32 (port : UInt16) : clamp port.toUInt32 = port := by
  have small : port.toUInt32 ≤ 65535 := by
    rw [UInt32.le_iff_toNat_le, UInt16.toNat_toUInt32]
    exact Nat.le_of_lt_succ port.toNat_lt
  unfold clamp
  rw [if_pos small]
  exact UInt16.toUInt16_toUInt32 port

/-- Only a list that holds nothing but port 0 is read back as something else. -/
theorem ports_again_iff (endpoint : NetworkEndpointDef) :
    (yamlEndpoint endpoint.toProto).normalizedPorts = endpoint.normalizedPorts ↔ endpoint.ports ≠ [0] := by
  rcases listed : endpoint.ports with _ | ⟨first, _ | ⟨second, rest⟩⟩
  · by_cases zero : endpoint.port = 0
    · simp [NetworkEndpointDef.normalizedPorts, NetworkEndpointDef.toProto, yamlEndpoint, yamlPorts, listed, zero, clamp]
    · have positive : 0 < endpoint.port := UInt16.pos_iff_ne_zero.mpr zero
      simp [NetworkEndpointDef.normalizedPorts, NetworkEndpointDef.toProto, yamlEndpoint, yamlPorts, listed, positive,
        clamp_toUInt32]
  · by_cases zero : first = 0
    · simp [NetworkEndpointDef.normalizedPorts, NetworkEndpointDef.toProto, yamlEndpoint, yamlPorts, listed, zero, clamp]
    · have positive : 0 < first := UInt16.pos_iff_ne_zero.mpr zero
      simp [NetworkEndpointDef.normalizedPorts, NetworkEndpointDef.toProto, yamlEndpoint, yamlPorts, listed, positive,
        clamp_toUInt32, zero]
  · simp [NetworkEndpointDef.normalizedPorts, NetworkEndpointDef.toProto, yamlEndpoint, yamlPorts, listed, clamp_toUInt32]

theorem endpoint_again_iff (endpoint : NetworkEndpointDef) :
    (yamlEndpoint endpoint.toProto).toProto = endpoint.toProto ↔ endpoint.ports ≠ [0] := by
  rw [← ports_again_iff]
  have rules : (yamlEndpoint endpoint.toProto).rules.map L7RuleDef.toProto = endpoint.toProto.rules := by
    simp [NetworkEndpointDef.toProto, yamlEndpoint, rule_again]
  constructor
  · intro same
    exact congrArg NetworkEndpoint.ports same
  · intro same
    rw [NetworkEndpointDef.toProto.eq_1 (yamlEndpoint endpoint.toProto), same, rules]
    rfl

theorem list_again_iff {α β : Type} {again : β → α} {make : α → β} {fits : α → Prop}
    (each : ∀ item, make (again (make item)) = make item ↔ fits item) (list : List α) :
    ((list.map make).map again).map make = list.map make ↔ ∀ item ∈ list, fits item := by
  simp only [List.map_map, List.map_inj_left, Function.comp_apply, each]

theorem policyRule_again_iff (key : String) (rule : NetworkPolicyRuleDef) :
    (yamlPolicyRule (rule.toProto key)).toProto key = rule.toProto key ↔ ∀ endpoint ∈ rule.endpoints, endpoint.ports ≠ [0] := by
  rw [← list_again_iff endpoint_again_iff rule.endpoints]
  constructor
  · intro same
    exact congrArg NetworkPolicyRule.endpoints same
  · intro same
    have name : (if (yamlPolicyRule (rule.toProto key)).name.isEmpty then key
        else (yamlPolicyRule (rule.toProto key)).name) = (rule.toProto key).name := by
      by_cases unnamed : rule.name.isEmpty = true
      · simp [yamlPolicyRule, NetworkPolicyRuleDef.toProto, unnamed]
      · simp [yamlPolicyRule, NetworkPolicyRuleDef.toProto, unnamed]
    have endpoints : (yamlPolicyRule (rule.toProto key)).endpoints.map NetworkEndpointDef.toProto =
        (rule.toProto key).endpoints := same
    have binaries : ((yamlPolicyRule (rule.toProto key)).binaries.map fun binary => ({ path := binary.path } : NetworkBinary)) =
        (rule.toProto key).binaries := by
      simp [yamlPolicyRule, NetworkPolicyRuleDef.toProto]
    rw [NetworkPolicyRuleDef.toProto.eq_1 key (yamlPolicyRule (rule.toProto key)), name, endpoints, binaries]

theorem process_again_iff (process : Option ProcessDef) :
    ((process.map fun p => (⟨p.runAsUser, p.runAsGroup⟩ : ProcessPolicy)).bind yamlProcess).map
      (fun p => (⟨p.runAsUser, p.runAsGroup⟩ : ProcessPolicy)) = (process.map fun p => ⟨p.runAsUser, p.runAsGroup⟩) ↔
        process ≠ some ⟨"", ""⟩ := by
  cases process with
  | none => simp
  | some names =>
    obtain ⟨user, group⟩ := names
    by_cases empty : user = "" ∧ group = ""
    · simp [yamlProcess, empty]
    · have named : ¬ (user.isEmpty && group.isEmpty) = true := by simpa using empty
      simp only [Option.map_some, Option.bind_some, yamlProcess, if_neg named]
      simpa using empty

/-- The flag of a binary that is not written has no meaning. -/
theorem toProto_written (file : PolicyFile) : toProto file.written = toProto file := by
  have rules : Maps.mapValues NetworkPolicyRuleDef.toProto file.written.networkPolicies.map =
      Maps.mapValues NetworkPolicyRuleDef.toProto file.networkPolicies.map := by
    apply AList.ext
    simp [Maps.mapValues, PolicyFile.written, NetworkPolicyRuleDef.toProto, Sigma.map]
  unfold toProto
  rw [rules]
  rfl

theorem networkPolicies_again_iff (raw : PolicyFile) :
    (toProto (fromProto (toProto raw))).networkPolicies.entries.Perm (toProto raw).networkPolicies.entries ↔
      ∀ entry ∈ raw.networkPolicies.map.entries, ∀ endpoint ∈ entry.2.endpoints, endpoint.ports ≠ [0] := by
  have found : ∀ key, (toProto (fromProto (toProto raw))).networkPolicies.lookup key =
      (raw.networkPolicies.map.lookup key).map fun rule => (yamlPolicyRule (rule.toProto key)).toProto key := by
    intro key
    simp [toProto, fromProto, SortedMap.ofMap_lookup, Function.comp_def]
  have original : ∀ key, (toProto raw).networkPolicies.lookup key =
      (raw.networkPolicies.map.lookup key).map (NetworkPolicyRuleDef.toProto key) := by
    intro key
    simp [toProto]
  rw [Maps.perm_iff_lookup]
  constructor
  · intro same entry member
    have held : raw.networkPolicies.map.lookup entry.1 = some entry.2 := Maps.lookup_of_mem member
    have again := same entry.1
    rw [found, original, held] at again
    exact (policyRule_again_iff entry.1 entry.2).mp (Option.some.inj again)
  · intro telling key
    rw [found, original]
    cases held : raw.networkPolicies.map.lookup key with
    | none => rfl
    | some rule =>
      have again := (policyRule_again_iff key rule).mpr (telling ⟨key, rule⟩ (Maps.mem_of_lookup held))
      simp [again]

theorem same_again_iff (raw : PolicyFile) : (toProto (fromProto (toProto raw))).Same (toProto raw) ↔ raw.Telling := by
  constructor
  · intro same
    exact ⟨(process_again_iff raw.process).mp same.process, (networkPolicies_again_iff raw).mp same.networkPolicies⟩
  · intro telling
    refine ⟨rfl, ?_, ?_, (process_again_iff raw.process).mpr telling.process,
      (networkPolicies_again_iff raw).mpr telling.ports⟩
    · cases fs : raw.filesystemPolicy <;> simp [toProto, fromProto, fs]
    · cases ll : raw.landlock <;> simp [toProto, fromProto, ll]

theorem parse_serialize (library : YamlLibrary Document) (policy : SandboxPolicy) :
    ∃ text, serializeSandboxPolicy library policy = .ok text ∧
      parseSandboxPolicy library text = .ok (toProto (fromProto policy)) := by
  obtain ⟨text, written, read⟩ := library.round_trip (fromProto policy)
  refine ⟨text, ?_, ?_⟩
  · simp [serializeSandboxPolicy, written]
  · simp [parseSandboxPolicy, read, toProto_written]

/-- An accepted document round-trips, exactly if each of its sections and port lists says something. -/
theorem yaml_round_trips_iff (library : YamlLibrary Document) (yaml : Document) (raw : PolicyFile)
    (accepted : library.fromStr yaml = .ok raw) : RoundTrips library yaml ↔ raw.Telling := by
  have parsed : parseSandboxPolicy library yaml = .ok (toProto raw) := by simp [parseSandboxPolicy, accepted]
  obtain ⟨text, written, again⟩ := parse_serialize library (toProto raw)
  rw [← same_again_iff]
  constructor
  · rintro ⟨policy, _, second, first, serialized, reparsed, same⟩
    rw [parsed] at first
    cases first
    rw [written] at serialized
    cases serialized
    rw [again] at reparsed
    cases reparsed
    exact same
  · intro same
    exact ⟨_, text, _, parsed, written, again, same⟩

/-- A library whose documents are the files themselves. -/
def plainYaml : YamlLibrary PolicyFile :=
  ⟨fun file => .ok file, fun file => .ok file.written, fun file => ⟨file.written, rfl, rfl⟩⟩

def emptyProcessFile : PolicyFile := { version := 1, process := some {}, networkPolicies := ⟨∅, List.Pairwise.nil⟩ }

/-- A process section without names is dropped on the way back. -/
theorem empty_process_dropped :
    ¬ ∀ (Document : Type) (library : YamlLibrary Document) (yaml : Document) (raw : PolicyFile),
      library.fromStr yaml = .ok raw → RoundTrips library yaml := by
  intro trips
  obtain ⟨policy, text, again, parsed, written, reparsed, same⟩ := trips PolicyFile plainYaml emptyProcessFile _ rfl
  cases parsed
  cases written
  cases reparsed
  have process := same.process
  revert process
  decide

theorem user_process_kept :
    RoundTrips plainYaml { emptyProcessFile with process := some ⟨"agent", ""⟩ } ↔
      PolicyFile.Telling { emptyProcessFile with process := some ⟨"agent", ""⟩ } :=
  yaml_round_trips_iff plainYaml _ _ rfl

end RoundTrip

end OpenShell.Policy
