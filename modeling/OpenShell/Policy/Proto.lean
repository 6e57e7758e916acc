import OpenShell.Lib.Maps
import OpenShell.Lib.Protobuf
import OpenShell.Policy.Model

namespace OpenShell.Policy

open Protobuf

/-! How the messages are written. -/

def FilesystemPolicy.encodeToVec (policy : FilesystemPolicy) : List UInt8 :=
  encodeMessage [(1, flag policy.includeWorkdir), (2, texts policy.readOnly), (3, texts policy.readWrite)]

def LandlockPolicy.encodeToVec (policy : LandlockPolicy) : List UInt8 :=
  encodeMessage [(1, text policy.compatibility)]

def ProcessPolicy.encodeToVec (policy : ProcessPolicy) : List UInt8 :=
  encodeMessage [(1, text policy.runAsUser), (2, text policy.runAsGroup)]

def L7QueryMatcher.encodeToVec (matcher : L7QueryMatcher) : List UInt8 :=
  encodeMessage [(1, text matcher.glob), (2, texts matcher.any)]

def NetworkBinary.encodeToVec (binary : NetworkBinary) : List UInt8 :=
  encodeMessage [(1, text binary.path), (2, flag binary.harness)]

theorem FilesystemPolicy.encodeToVec_injective : Function.Injective FilesystemPolicy.encodeToVec := by
  rintro ⟨workdir, readOnly, readWrite⟩ ⟨workdir', readOnly', readWrite'⟩ same
  have pieces := encodeMessage_inj [1, 2, 3] rfl rfl (by decide) same
  simpa using pieces

theorem L7QueryMatcher.encodeToVec_injective : Function.Injective L7QueryMatcher.encodeToVec := by
  rintro ⟨glob, any⟩ ⟨glob', any'⟩ same
  have pieces := encodeMessage_inj [1, 2] rfl rfl (by decide) same
  simpa using pieces

theorem NetworkBinary.encodeToVec_injective : Function.Injective NetworkBinary.encodeToVec := by
  rintro ⟨path, harness⟩ ⟨path', harness'⟩ same
  have pieces := encodeMessage_inj [1, 2] rfl rfl (by decide) same
  simpa using pieces

/-! The messages with the maps as they are held: a `HashMap` is written in its iteration order, which two
equal maps need not share. -/

namespace Proto

structure L7Allow where
  method : String := ""
  path : String := ""
  command : String := ""
  query : StringMap L7QueryMatcher := ∅
deriving DecidableEq

structure L7Rule where
  allow : Option L7Allow := none
deriving DecidableEq

structure NetworkEndpoint where
  host : String := ""
  port : UInt32 := 0
  protocol : String := ""
  tls : String := ""
  enforcement : String := ""
  access : String := ""
  rules : List L7Rule := []
  allowedIps : List String := []
  ports : List UInt32 := []
deriving DecidableEq

structure NetworkPolicyRule where
  name : String := ""
  endpoints : List NetworkEndpoint := []
  binaries : List NetworkBinary := []
deriving DecidableEq

structure SandboxPolicy where
  version : UInt32 := 0
  filesystem : Option FilesystemPolicy := none
  landlock : Option LandlockPolicy := none
  process : Option ProcessPolicy := none
  networkPolicies : StringMap NetworkPolicyRule := ∅
deriving DecidableEq

def L7Allow.value (allow : L7Allow) : Policy.L7Allow :=
  { method := allow.method, path := allow.path, command := allow.command, query := allow.query.toFinmap }

def L7Rule.value (rule : L7Rule) : Policy.L7Rule := { allow := rule.allow.map L7Allow.value }

def NetworkEndpoint.value (endpoint : NetworkEndpoint) : Policy.NetworkEndpoint :=
  { host := endpoint.host, port := endpoint.port, protocol := endpoint.protocol, tls := endpoint.tls,
    enforcement := endpoint.enforcement, access := endpoint.access, rules := endpoint.rules.map L7Rule.value,
    allowedIps := endpoint.allowedIps, ports := endpoint.ports }

def NetworkPolicyRule.value (rule : NetworkPolicyRule) : Policy.NetworkPolicyRule :=
  { name := rule.name, endpoints := rule.endpoints.map NetworkEndpoint.value, binaries := rule.binaries }

/-- What the message says, whatever the order in which it is held. -/
def SandboxPolicy.value (policy : SandboxPolicy) : Policy.SandboxPolicy :=
  { version := policy.version, filesystem := policy.filesystem, landlock := policy.landlock,
    process := policy.process, networkPolicies := Maps.mapValues (fun _ => NetworkPolicyRule.value) policy.networkPolicies }

def L7Allow.encodeToVec (allow : L7Allow) : List UInt8 :=
  encodeMessage [(1, text allow.method), (2, text allow.path), (3, text allow.command),
    (4, messages (mapEntry {} L7QueryMatcher.encodeToVec) allow.query.entries)]

def L7Rule.encodeToVec (rule : L7Rule) : List UInt8 :=
  encodeMessage [(1, messages L7Allow.encodeToVec rule.allow.toList)]

def NetworkEndpoint.encodeToVec (endpoint : NetworkEndpoint) : List UInt8 :=
  encodeMessage [(1, text endpoint.host), (2, uint32 endpoint.port), (3, text endpoint.protocol),
    (4, text endpoint.tls), (5, text endpoint.enforcement), (6, text endpoint.access),
    (7, messages L7Rule.encodeToVec endpoint.rules), (8, texts endpoint.allowedIps), (9, packed endpoint.ports)]

def NetworkPolicyRule.pieces (rule : NetworkPolicyRule) : List Piece :=
  [(1, text rule.name), (2, messages NetworkEndpoint.encodeToVec rule.endpoints),
    (3, messages NetworkBinary.encodeToVec rule.binaries)]

def NetworkPolicyRule.encodeToVec (rule : NetworkPolicyRule) : List UInt8 := encodeMessage rule.pieces

def SandboxPolicy.encodeToVec (policy : SandboxPolicy) : List UInt8 :=
  encodeMessage [(1, uint32 policy.version), (2, messages FilesystemPolicy.encodeToVec policy.filesystem.toList),
    (3, messages LandlockPolicy.encodeToVec policy.landlock.toList),
    (4, messages ProcessPolicy.encodeToVec policy.process.toList),
    (5, messages (mapEntry {} NetworkPolicyRule.encodeToVec) policy.networkPolicies.entries)]

/-! A rule can be read back from what is written, with the order of its maps. -/

theorem toList_inj {α : Type} {first second : Option α} : first.toList = second.toList ↔ first = second := by
  cases first <;> cases second <;> simp

theorem L7Allow.encodeToVec_injective : Function.Injective L7Allow.encodeToVec := by
  rintro ⟨method, path, command, query⟩ ⟨method', path', command', query'⟩ same
  have pieces := encodeMessage_inj [1, 2, 3, 4] rfl rfl (by decide) same
  simpa [messages_inj (mapEntry_injective L7QueryMatcher.encodeToVec_injective), AList.ext_iff] using pieces

theorem L7Rule.encodeToVec_injective : Function.Injective L7Rule.encodeToVec := by
  rintro ⟨allow⟩ ⟨allow'⟩ same
  have pieces := encodeMessage_inj [1] rfl rfl (by decide) same
  simpa [messages_inj L7Allow.encodeToVec_injective, toList_inj] using pieces

theorem NetworkEndpoint.encodeToVec_injective : Function.Injective NetworkEndpoint.encodeToVec := by
  rintro ⟨host, port, protocol, tls, enforcement, access, rules, allowedIps, ports⟩
    ⟨host', port', protocol', tls', enforcement', access', rules', allowedIps', ports'⟩ same
  have pieces := encodeMessage_inj [1, 2, 3, 4, 5, 6, 7, 8, 9] rfl rfl (by decide) same
  simpa [messages_inj L7Rule.encodeToVec_injective] using pieces

theorem NetworkPolicyRule.pieces_injective {rule other : NetworkPolicyRule} (same : rule.pieces = other.pieces) :
    rule = other := by
  obtain ⟨name, endpoints, binaries⟩ := rule
  obtain ⟨name', endpoints', binaries'⟩ := other
  simpa [pieces, messages_inj NetworkEndpoint.encodeToVec_injective, messages_inj NetworkBinary.encodeToVec_injective]
    using same

theorem NetworkPolicyRule.encodeToVec_injective : Function.Injective NetworkPolicyRule.encodeToVec :=
  fun _ _ same => pieces_injective (encodeMessage_inj [1, 2, 3] rfl rfl (by decide) same)

/-! Equal messages are written in equally many bytes. -/

theorem L7Allow.length_of_value {allow other : L7Allow} (same : allow.value = other.value) :
    allow.encodeToVec.length = other.encodeToVec.length := by
  simp only [value, Policy.L7Allow.mk.injEq, AList.toFinmap_eq] at same
  obtain ⟨method, path, command, query⟩ := same
  apply length_encodeMessage
  rw [method, path, command]
  refine .cons (.of_eq rfl) (.cons (.of_eq rfl) (.cons (.of_eq rfl) (.cons ⟨rfl, ?_⟩ .nil)))
  exact (query.map _).map _

theorem L7Rule.length_of_value {rule other : L7Rule} (same : rule.value = other.value) :
    rule.encodeToVec.length = other.encodeToVec.length := by
  simp only [value, Policy.L7Rule.mk.injEq] at same
  apply length_encodeMessage
  refine .cons ⟨rfl, .of_eq ?_⟩ .nil
  refine shapes_messages ?_ fun _ _ => L7Allow.length_of_value
  have lists := congrArg Option.toList same
  rwa [Option.toList_map, Option.toList_map] at lists

theorem NetworkEndpoint.length_of_value {endpoint other : NetworkEndpoint} (same : endpoint.value = other.value) :
    endpoint.encodeToVec.length = other.encodeToVec.length := by
  simp only [value, Policy.NetworkEndpoint.mk.injEq] at same
  obtain ⟨host, port, protocol, tls, enforcement, access, rules, allowedIps, ports⟩ := same
  apply length_encodeMessage
  rw [host, port, protocol, tls, enforcement, access, allowedIps, ports]
  refine .cons (.of_eq rfl) (.cons (.of_eq rfl) (.cons (.of_eq rfl) (.cons (.of_eq rfl) (.cons (.of_eq rfl)
    (.cons (.of_eq rfl) (.cons ⟨rfl, .of_eq ?_⟩ (.cons (.of_eq rfl) (.cons (.of_eq rfl) .nil))))))))
  exact shapes_messages rules fun _ _ => L7Rule.length_of_value

theorem NetworkPolicyRule.length_of_value {rule other : NetworkPolicyRule} (same : rule.value = other.value) :
    rule.encodeToVec.length = other.encodeToVec.length := by
  simp only [value, Policy.NetworkPolicyRule.mk.injEq] at same
  obtain ⟨name, endpoints, binaries⟩ := same
  apply length_encodeMessage
  rw [pieces, pieces, name, binaries]
  refine .cons (.of_eq rfl) (.cons ⟨rfl, .of_eq ?_⟩ (.cons (.of_eq rfl) .nil))
  exact shapes_messages endpoints fun _ _ => NetworkEndpoint.length_of_value

end Proto

end OpenShell.Policy
