import Mathlib.Data.Finmap
import OpenShell.Lib.Text

namespace OpenShell.Policy

/-- A `HashMap` with string keys. The order of the entries stands for the map's iteration order,
    which the standard library leaves unspecified. -/
abbrev StringMap (β : Type) : Type := AList (fun _ : String => β)

structure FilesystemPolicy where
  includeWorkdir : Bool := false
  readOnly : List String := []
  readWrite : List String := []
deriving DecidableEq

structure LandlockPolicy where
  compatibility : String := ""
deriving DecidableEq

structure ProcessPolicy where
  runAsUser : String := ""
  runAsGroup : String := ""
deriving DecidableEq

structure L7QueryMatcher where
  glob : String := ""
  any : List String := []
deriving DecidableEq

structure L7Allow where
  method : String := ""
  path : String := ""
  command : String := ""
  query : Finmap (fun _ : String => L7QueryMatcher) := ∅
deriving DecidableEq

structure L7Rule where
  allow : Option L7Allow := none
deriving DecidableEq

structure NetworkBinary where
  path : String
  harness : Bool := false
deriving DecidableEq

structure NetworkEndpoint where
  host : String := ""
  port : UInt32 := 0
  protocol : String := ""
  tls : String := ""
  enforcement : String := ""
  access : String := ""
  rules : List L7Rule := []
  allowedIps : List String := []
  ports : List UInt32 := []
deriving DecidableEq

structure NetworkPolicyRule where
  name : String := ""
  endpoints : List NetworkEndpoint := []
  binaries : List NetworkBinary := []
deriving DecidableEq

structure SandboxPolicy where
  version : UInt32 := 0
  filesystem : Option FilesystemPolicy := none
  landlock : Option LandlockPolicy := none
  process : Option ProcessPolicy := none
  networkPolicies : StringMap NetworkPolicyRule := ∅
deriving DecidableEq

/-- Equality of messages: maps are compared as maps, whatever their iteration order. -/
structure SandboxPolicy.Same (first second : SandboxPolicy) : Prop where
  version : first.version = second.version
  filesystem : first.filesystem = second.filesystem
  landlock : first.landlock = second.landlock
  process : first.process = second.process
  networkPolicies : first.networkPolicies.entries.Perm second.networkPolicies.entries

theorem SandboxPolicy.Same.refl (policy : SandboxPolicy) : policy.Same policy :=
  ⟨rfl, rfl, rfl, rfl, List.Perm.refl _⟩

theorem SandboxPolicy.Same.symm {first second : SandboxPolicy} (same : first.Same second) : second.Same first :=
  ⟨same.version.symm, same.filesystem.symm, same.landlock.symm, same.process.symm, same.networkPolicies.symm⟩

theorem SandboxPolicy.Same.trans {first second third : SandboxPolicy} (same : first.Same second)
    (again : second.Same third) : first.Same third :=
  ⟨same.version.trans again.version, same.filesystem.trans again.filesystem, same.landlock.trans again.landlock,
    same.process.trans again.process, same.networkPolicies.trans again.networkPolicies⟩

theorem SandboxPolicy.Same.lookup {first second : SandboxPolicy} (same : first.Same second)
    (name : String) : first.networkPolicies.lookup name = second.networkPolicies.lookup name :=
  AList.perm_lookup same.networkPolicies

def NetworkEndpoint.effectivePorts (endpoint : NetworkEndpoint) : List UInt32 :=
  if endpoint.ports.isEmpty then [endpoint.port] else endpoint.ports

/-- The `prost` encoding of the messages and the SHA-256 digest, both outside the repository.
    A blob is the byte string of an encoded message; decoding it again gives the same message,
    with the policy map in some iteration order. -/
structure Wire (Blob : Type) where
  encodePolicy : SandboxPolicy → Blob
  decodePolicy : Blob → Except String SandboxPolicy
  encodeRule : NetworkPolicyRule → Blob
  decodeRule : Blob → Except String NetworkPolicyRule
  encodeFilesystem : FilesystemPolicy → Blob
  encodeLandlock : LandlockPolicy → Blob
  encodeProcess : ProcessPolicy → Blob
  bytes : Blob → List UInt8
  sha256Hex : List UInt8 → String
  policy_round_trip : ∀ policy, ∃ decoded, decodePolicy (encodePolicy policy) = .ok decoded ∧ decoded.Same policy
  rule_round_trip : ∀ rule, decodeRule (encodeRule rule) = .ok rule

variable {Blob : Type}

def toLeBytes (value : UInt32) : List UInt8 :=
  [value.toUInt8, (value >>> 8).toUInt8, (value >>> 16).toUInt8, (value >>> 24).toUInt8]

def hashInput (wire : Wire Blob) (policy : SandboxPolicy) : List UInt8 :=
  toLeBytes policy.version ++
  (policy.filesystem.elim [] fun fs => wire.bytes (wire.encodeFilesystem fs)) ++
  (policy.landlock.elim [] fun ll => wire.bytes (wire.encodeLandlock ll)) ++
  (policy.process.elim [] fun p => wire.bytes (wire.encodeProcess p)) ++
  (policy.networkPolicies.entries.mergeSort (fun first second => first.1 ≤ second.1)).flatMap
    (fun entry => entry.1.toUTF8.toList ++ wire.bytes (wire.encodeRule entry.2))

def deterministicPolicyHash (wire : Wire Blob) (policy : SandboxPolicy) : String :=
  wire.sha256Hex (hashInput wire policy)

inductive Message where
  | policy (value : SandboxPolicy)
  | rule (value : NetworkPolicyRule)
  | filesystem (value : FilesystemPolicy)
  | landlock (value : LandlockPolicy)
  | process (value : ProcessPolicy)
deriving DecidableEq

def NetworkEndpoint.fields (endpoint : NetworkEndpoint) : List String :=
  [endpoint.host, toString endpoint.port, endpoint.protocol, endpoint.tls, endpoint.enforcement,
    endpoint.access] ++ endpoint.allowedIps ++ endpoint.ports.map toString

def Message.fields : Message → List String
  | .policy value => value.networkPolicies.entries.map Sigma.fst
  | .rule value =>
    value.name :: value.endpoints.flatMap NetworkEndpoint.fields ++ value.binaries.map NetworkBinary.path
  | .filesystem value => value.readOnly ++ value.readWrite
  | .landlock value => [value.compatibility]
  | .process value => [value.runAsUser, value.runAsGroup]

def Message.bytes (message : Message) : List UInt8 := ("\n".intercalate message.fields).toUTF8.toList

def plainWire : Wire Message where
  encodePolicy := .policy
  decodePolicy
    | .policy value => .ok value
    | _ => .error "failed to decode Protobuf message"
  encodeRule := .rule
  decodeRule
    | .rule value => .ok value
    | _ => .error "failed to decode Protobuf message"
  encodeFilesystem := .filesystem
  encodeLandlock := .landlock
  encodeProcess := .process
  bytes := Message.bytes
  sha256Hex := Text.hexEncode
  policy_round_trip := fun policy => ⟨policy, rfl, SandboxPolicy.Same.refl policy⟩
  rule_round_trip := fun _ => rfl

end OpenShell.Policy
