import OpenShell.Server.Store

namespace OpenShell.Server

open OpenShell.Policy

variable {Blob : Type}

/-! The pure part of `merge_chunk_into_policy` and `remove_chunk_from_policy`: what they make of a
decoded policy. `lower` is `str::to_lowercase`. -/

section

variable (lower : String → String)

def DraftChunkRecord.portU32 (chunk : DraftChunkRecord Blob) : UInt32 := chunk.port.toUInt32

def coversChunk (chunk : DraftChunkRecord Blob) (endpoint : NetworkEndpoint) : Bool :=
  lower endpoint.host == lower chunk.host &&
    (if endpoint.ports.isEmpty then endpoint.port == chunk.portU32
     else endpoint.ports.contains chunk.portU32)

/-- The rule a chunk is folded into: the one with its name, else the first in iteration order that
    covers its recorded endpoint. -/
def mergeKey (policy : SandboxPolicy) (chunk : DraftChunkRecord Blob) : Option String :=
  if (policy.networkPolicies.lookup chunk.ruleName).isSome then some chunk.ruleName
  else (policy.networkPolicies.entries.find? fun entry =>
    entry.2.endpoints.any (coversChunk lower chunk)).map Sigma.fst

def addBinary (binaries : List NetworkBinary) (binary : NetworkBinary) : List NetworkBinary :=
  if binaries.any (fun existing => existing.path == binary.path) then binaries
  else binaries ++ [binary]

def addAllowedIp (ips : List String) (ip : String) : List String :=
  if ips.contains ip then ips else ips ++ [ip]

def sameEndpoint (proposed existing : NetworkEndpoint) : Bool :=
  lower existing.host == lower proposed.host &&
    (existing.port == proposed.port ||
      (!existing.ports.isEmpty && existing.ports.contains proposed.port))

/-- Changes the first element that satisfies the predicate, as `iter_mut().find()` does. -/
def updateFirst {α : Type} (chosen : α → Bool) (change : α → α) : List α → Option (List α)
  | [] => none
  | item :: rest =>
    if chosen item then some (change item :: rest)
    else (updateFirst chosen change rest).map (item :: ·)

def addEndpoint (endpoints : List NetworkEndpoint) (proposed : NetworkEndpoint) :
    List NetworkEndpoint :=
  match updateFirst (sameEndpoint lower proposed)
      (fun existing => { existing with
        allowedIps := proposed.allowedIps.foldl addAllowedIp existing.allowedIps }) endpoints with
  | some updated => updated
  | none => endpoints ++ [proposed]

def foldRule (existing rule : NetworkPolicyRule) : NetworkPolicyRule :=
  { existing with
    binaries := rule.binaries.foldl addBinary existing.binaries
    endpoints := rule.endpoints.foldl (addEndpoint lower) existing.endpoints }

def mergeChunk (policy : SandboxPolicy) (chunk : DraftChunkRecord Blob) (rule : NetworkPolicyRule) :
    SandboxPolicy :=
  match mergeKey lower policy chunk with
  | some key =>
    match policy.networkPolicies.lookup key with
    | some existing =>
      { policy with networkPolicies := policy.networkPolicies.insert key (foldRule lower existing rule) }
    | none => policy
  | none => { policy with networkPolicies := policy.networkPolicies.insert chunk.ruleName rule }

end

def removeChunk (policy : SandboxPolicy) (chunk : DraftChunkRecord Blob) : SandboxPolicy :=
  match policy.networkPolicies.lookup chunk.ruleName with
  | some existing =>
    let kept := existing.binaries.filter (fun binary => binary.path != chunk.binary)
    if kept.isEmpty then
      { policy with networkPolicies := policy.networkPolicies.erase chunk.ruleName }
    else
      { policy with
        networkPolicies := policy.networkPolicies.insert chunk.ruleName { existing with binaries := kept } }
  | none => policy

/-! What the two functions do to a lookup. -/

section

variable (lower : String → String) {policy : SandboxPolicy} {chunk : DraftChunkRecord Blob}
  {rule : NetworkPolicyRule}

theorem mergeKey_of_present (present : (policy.networkPolicies.lookup chunk.ruleName).isSome) :
    mergeKey lower policy chunk = some chunk.ruleName := by
  simp [mergeKey, present]

theorem mergeKey_present {key : String} (chosen : mergeKey lower policy chunk = some key) :
    ∃ existing, policy.networkPolicies.lookup key = some existing := by
  unfold mergeKey at chosen
  split at chosen
  · rename_i present
    cases chosen
    exact Option.isSome_iff_exists.mp present
  · obtain ⟨entry, found, rfl⟩ := Option.map_eq_some_iff.mp chosen
    exact ⟨entry.2, AList.mem_lookup_iff.mpr (List.mem_of_find?_eq_some found)⟩

theorem mergeKey_none_iff :
    mergeKey lower policy chunk = none ↔
      policy.networkPolicies.lookup chunk.ruleName = none ∧
      ∀ entry ∈ policy.networkPolicies.entries, ∀ endpoint ∈ entry.2.endpoints,
        coversChunk lower chunk endpoint = false := by
  unfold mergeKey
  split
  · rename_i present
    simp only [reduceCtorEq, false_iff, not_and]
    intro absent
    rw [absent] at present
    cases present
  · rename_i absent
    have missing : policy.networkPolicies.lookup chunk.ruleName = none := by simpa using absent
    simp only [Option.map_eq_none_iff, List.find?_eq_none, missing, true_and]
    exact forall₂_congr fun entry _ => by simp

theorem mergeChunk_folded {key : String} {existing : NetworkPolicyRule}
    (chosen : mergeKey lower policy chunk = some key)
    (present : policy.networkPolicies.lookup key = some existing) :
    mergeChunk lower policy chunk rule =
      { policy with networkPolicies := policy.networkPolicies.insert key (foldRule lower existing rule) } := by
  simp [mergeChunk, chosen, present]

theorem mergeChunk_inserted (chosen : mergeKey lower policy chunk = none) :
    mergeChunk lower policy chunk rule =
      { policy with networkPolicies := policy.networkPolicies.insert chunk.ruleName rule } := by
  simp [mergeChunk, chosen]

theorem removeChunk_absent (absent : policy.networkPolicies.lookup chunk.ruleName = none) :
    removeChunk policy chunk = policy := by
  simp [removeChunk, absent]

def withoutBinary (path : String) (rule : NetworkPolicyRule) : NetworkPolicyRule :=
  { rule with binaries := rule.binaries.filter (fun binary => binary.path != path) }

theorem removeChunk_lookup_self {existing : NetworkPolicyRule}
    (present : policy.networkPolicies.lookup chunk.ruleName = some existing) :
    (removeChunk policy chunk).networkPolicies.lookup chunk.ruleName =
      if (withoutBinary chunk.binary existing).binaries.isEmpty then none
      else some (withoutBinary chunk.binary existing) := by
  by_cases empty : (withoutBinary chunk.binary existing).binaries.isEmpty
  · rw [if_pos empty]
    simp only [withoutBinary] at empty
    simp only [removeChunk, present, empty, if_true]
    exact AList.lookup_erase _ policy.networkPolicies
  · rw [if_neg empty]
    simp only [withoutBinary] at empty ⊢
    simp only [removeChunk, present, empty]
    exact AList.lookup_insert policy.networkPolicies

theorem removeChunk_lookup_other {name : String} (other : name ≠ chunk.ruleName) :
    (removeChunk policy chunk).networkPolicies.lookup name = policy.networkPolicies.lookup name := by
  unfold removeChunk
  split
  · dsimp only
    split
    · exact AList.lookup_erase_ne other
    · exact AList.lookup_insert_ne other
  · rfl

end

end OpenShell.Server
