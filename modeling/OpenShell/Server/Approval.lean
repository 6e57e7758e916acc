import OpenShell.Server.Grants
import OpenShell.Server.Revisions

namespace OpenShell.Server

open OpenShell.Policy Effects Effects.Fallible

variable {Blob : Type} (wire : Wire Blob) (lower : String → String)

/-- A merge adds the triples of the proposed rule and nothing else. -/
def AddsOnlyProposal (store : Store Blob) (sandboxId : String) (chunk : DraftChunkRecord Blob) : Prop :=
  ∀ written after rule before now,
    (mergeChunkIntoPolicy wire lower sandboxId chunk).run Store.exec store = (.ok written, after) →
    wire.decodeRule chunk.proposedRule = .ok rule →
    currentPolicy wire store sandboxId = .ok before → currentPolicy wire after sandboxId = .ok now →
    granted lower now = granted lower before ∪ ruleGrants lower rule

/-- What a merge does to the granted triples. The rule is added under its own name, or it is folded
    into an existing rule; then the endpoints that the rule lacks and the binaries are joined separately,
    and every endpoint of the folded rule is granted to each of its binaries. -/
structure MergeGrants (before now : SandboxPolicy) (chunk : DraftChunkRecord Blob)
    (rule : NetworkPolicyRule) : Prop where
  inserted : mergeKey lower before chunk = none →
    granted lower now = granted lower before ∪ ruleGrants lower rule
  folded : ∀ key existing, mergeKey lower before chunk = some key →
    before.networkPolicies.lookup key = some existing →
    granted lower now = granted lower before ∪
      crossing (reach lower existing.endpoints ∪ reach lower (unmatched lower existing.endpoints rule.endpoints))
        (listed existing.binaries ∪ listed rule.binaries)
  proposed : ∀ present, unmatched lower present rule.endpoints ⊆ rule.endpoints

variable {wire lower} {store after : Store Blob} {sandboxId : String}
  {chunk : DraftChunkRecord Blob} {written : Nat × String}

theorem mergeable_of_ok
    (succeeded : (mergeChunkIntoPolicy wire lower sandboxId chunk).run Store.exec store =
      (.ok written, after)) : ∃ rule policy, Mergeable wire store sandboxId chunk rule policy := by
  by_contra unready
  obtain ⟨status, failed⟩ := run_mergeChunkIntoPolicy_error wire lower unready
  rw [failed] at succeeded
  cases succeeded

theorem currentPolicy_merged {rule : NetworkPolicyRule} {policy : SandboxPolicy}
    (ready : Mergeable wire store sandboxId chunk rule policy)
    (succeeded : (mergeChunkIntoPolicy wire lower sandboxId chunk).run Store.exec store =
      (.ok written, after)) :
    ∃ now, currentPolicy wire after sandboxId = .ok now ∧
      now.Same (mergeChunk lower policy chunk rule) := by
  rw [run_mergeChunkIntoPolicy wire lower ready] at succeeded
  cases succeeded
  exact currentPolicy_appendRevision wire store sandboxId _ _

theorem mergeGrants_of_same {policy now : SandboxPolicy} {rule : NetworkPolicyRule}
    (same : now.Same (mergeChunk lower policy chunk rule)) : MergeGrants lower policy now chunk rule := by
  have grants := granted_congr lower same
  constructor
  · intro chosen
    rw [grants, granted_inserted lower chosen]
  · intro key existing chosen present
    rw [grants, granted_folded lower chosen present, foldRule_grants]
  · exact unmatched_subset lower rule.endpoints

theorem merge_grants
    (succeeded : (mergeChunkIntoPolicy wire lower sandboxId chunk).run Store.exec store =
      (.ok written, after)) :
    ∃ rule before now, wire.decodeRule chunk.proposedRule = .ok rule ∧
      currentPolicy wire store sandboxId = .ok before ∧ currentPolicy wire after sandboxId = .ok now ∧
      MergeGrants lower before now chunk rule := by
  obtain ⟨rule, before, ready⟩ := mergeable_of_ok succeeded
  obtain ⟨now, decoded, same⟩ := currentPolicy_merged ready succeeded
  exact ⟨rule, before, now, ready.1, ready.2, decoded, mergeGrants_of_same same⟩

section Example

def curlRule : NetworkPolicyRule :=
  { name := "web", endpoints := [{ host := "a.example", port := 443 }],
    binaries := [{ path := "/usr/bin/curl" }] }

def gitRule : NetworkPolicyRule :=
  { name := "web", endpoints := [{ host := "b.example", port := 443 }],
    binaries := [{ path := "/usr/bin/git" }] }

def gitChunk : DraftChunkRecord Message :=
  { id := "c1", sandboxId := "sb", status := .pending, ruleName := "web", proposedRule := .rule gitRule,
    host := "b.example", port := 443, binary := "/usr/bin/git" }

def curlPolicy : SandboxPolicy := { networkPolicies := AList.singleton "web" curlRule }

def curlStore : Store Message :=
  { policies := ⟨[Store.newRevision "sb" 1 (.policy curlPolicy) ""], by decide⟩ }

theorem curlStore_mergeable : Mergeable plainWire curlStore "sb" gitChunk gitRule curlPolicy :=
  ⟨rfl, rfl⟩

theorem not_addsOnlyProposal : ¬ AddsOnlyProposal plainWire String.toLower curlStore "sb" gitChunk := by
  intro claimed
  have ran := run_mergeChunkIntoPolicy plainWire String.toLower curlStore_mergeable
  obtain ⟨now, decoded, same⟩ := currentPolicy_merged curlStore_mergeable ran
  have equal := claimed _ _ gitRule curlPolicy now ran rfl rfl decoded
  have gained : (⟨"b.example", 443, "/usr/bin/curl"⟩ : Grant) ∈ granted String.toLower now := by
    rw [granted_congr String.toLower same]
    decide +kernel
  rw [equal] at gained
  rcases gained with before | proposed
  · exact absurd before (by decide +kernel)
  · exact absurd proposed (by decide +kernel)

theorem curlStore_merge_grants :
    ∃ rule before now, plainWire.decodeRule gitChunk.proposedRule = .ok rule ∧
      currentPolicy plainWire curlStore "sb" = .ok before ∧
      currentPolicy plainWire (curlStore.appendRevision "sb"
        (.policy (mergeChunk String.toLower curlPolicy gitChunk gitRule))
        (deterministicPolicyHash plainWire (mergeChunk String.toLower curlPolicy gitChunk gitRule))) "sb" =
        .ok now ∧
      MergeGrants String.toLower before now gitChunk rule :=
  merge_grants (run_mergeChunkIntoPolicy plainWire String.toLower curlStore_mergeable)

end Example

end OpenShell.Server
