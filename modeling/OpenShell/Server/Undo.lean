import OpenShell.Server.Approval

namespace OpenShell.Server

open OpenShell.Policy Effects Effects.Fallible

variable {Blob : Type} (wire : Wire Blob) (lower : String → String)

/-- Approving a chunk and withdrawing it again, with no write in between, gives the granted triples
    of the start. -/
def UndoRestores (store : Store Blob) (sandboxId : String) (chunk : DraftChunkRecord Blob) : Prop :=
  ∀ written withdrawn approved undone before after,
    (mergeChunkIntoPolicy wire lower sandboxId chunk).run Store.exec store = (.ok written, approved) →
    (removeChunkFromPolicy wire sandboxId chunk).run Store.exec approved = (.ok withdrawn, undone) →
    currentPolicy wire store sandboxId = .ok before → currentPolicy wire undone sandboxId = .ok after →
    granted lower after = granted lower before

def foldedPlaces (existing rule : NetworkPolicyRule) : Set (String × UInt32) :=
  reach lower existing.endpoints ∪ reach lower (unmatched lower existing.endpoints rule.endpoints)

/-- When a removal takes back what the merge added. A removal only drops the recorded binary from the
    rule called `rule_name`: everything else the merge adds must have been granted before, and what it
    drops must not have been there before, or must be granted by another rule too. -/
def Withdrawable (policy : SandboxPolicy) (chunk : DraftChunkRecord Blob) (rule : NetworkPolicyRule) :
    Prop :=
  match mergeKey lower policy chunk with
  | none =>
    crossing (reach lower rule.endpoints) (listed rule.binaries \ {chunk.binary}) ⊆ granted lower policy
  | some key => ∀ existing, policy.networkPolicies.lookup key = some existing →
    if key = chunk.ruleName then
      crossing (foldedPlaces lower existing rule)
          ((listed existing.binaries ∪ listed rule.binaries) \ {chunk.binary}) ⊆ granted lower policy ∧
        (chunk.binary ∈ listed existing.binaries →
          crossing (reach lower existing.endpoints) {chunk.binary} ⊆
            grantedElsewhere lower policy chunk.ruleName)
    else
      crossing (foldedPlaces lower existing rule) (listed existing.binaries ∪ listed rule.binaries) ⊆
        granted lower policy

variable {wire lower} {policy : SandboxPolicy} {chunk : DraftChunkRecord Blob} {rule : NetworkPolicyRule}

theorem granted_removeChunk_congr {first second : SandboxPolicy} (same : first.Same second) :
    granted lower (removeChunk first chunk) = granted lower (removeChunk second chunk) := by
  apply Keyed.union_congr
  intro name
  by_cases own : name = chunk.ruleName
  · subst name
    cases present : second.networkPolicies.lookup chunk.ruleName with
    | none =>
      have absent : first.networkPolicies.lookup chunk.ruleName = none := by rw [same.lookup, present]
      rw [removeChunk_absent absent, removeChunk_absent present, same.lookup]
    | some existing =>
      have found : first.networkPolicies.lookup chunk.ruleName = some existing := by
        rw [same.lookup, present]
      rw [removeChunk_lookup_self found, removeChunk_lookup_self present]
  · rw [removeChunk_lookup_other own, removeChunk_lookup_other own, same.lookup]

theorem withdrawn_inserted (chosen : mergeKey lower policy chunk = none) :
    granted lower (removeChunk (mergeChunk lower policy chunk rule) chunk) =
      crossing (reach lower rule.endpoints) (listed rule.binaries \ {chunk.binary}) ∪
        granted lower policy := by
  have absent := ((mergeKey_none_iff lower).mp chosen).1
  have present : (mergeChunk lower policy chunk rule).networkPolicies.lookup chunk.ruleName = some rule := by
    rw [mergeChunk_inserted lower chosen]
    exact AList.lookup_insert _
  have others : grantedElsewhere lower (mergeChunk lower policy chunk rule) chunk.ruleName =
      granted lower policy := by
    rw [mergeChunk_inserted lower chosen]
    unfold grantedElsewhere granted
    rw [Keyed.union_of_absent absent]
    exact Keyed.unionExcept_congr fun name differs => AList.lookup_insert_ne differs
  rw [granted_removed lower present, others]

theorem withdrawn_own {existing : NetworkPolicyRule}
    (present : policy.networkPolicies.lookup chunk.ruleName = some existing) :
    granted lower (removeChunk (mergeChunk lower policy chunk rule) chunk) =
      crossing (foldedPlaces lower existing rule)
          ((listed existing.binaries ∪ listed rule.binaries) \ {chunk.binary}) ∪
        grantedElsewhere lower policy chunk.ruleName := by
  have chosen : mergeKey lower policy chunk = some chunk.ruleName := by
    apply mergeKey_of_present
    rw [present]
    rfl
  have merged : mergeChunk lower policy chunk rule = { policy with
      networkPolicies := policy.networkPolicies.insert chunk.ruleName (foldRule lower existing rule) } :=
    mergeChunk_folded lower chosen present
  have found : (mergeChunk lower policy chunk rule).networkPolicies.lookup chunk.ruleName =
      some (foldRule lower existing rule) := by
    rw [merged]
    exact AList.lookup_insert _
  have others : grantedElsewhere lower (mergeChunk lower policy chunk rule) chunk.ruleName =
      grantedElsewhere lower policy chunk.ruleName := by
    rw [merged]
    exact Keyed.unionExcept_congr fun name differs => AList.lookup_insert_ne differs
  rw [granted_removed lower found, others]
  simp only [foldRule, listed_foldBinaries, reach_foldEndpoints, foldedPlaces]

theorem withdrawn_other {key : String} {existing : NetworkPolicyRule}
    (chosen : mergeKey lower policy chunk = some key)
    (present : policy.networkPolicies.lookup key = some existing) (differs : key ≠ chunk.ruleName) :
    granted lower (removeChunk (mergeChunk lower policy chunk rule) chunk) =
      granted lower policy ∪
        crossing (foldedPlaces lower existing rule) (listed existing.binaries ∪ listed rule.binaries) := by
  have unnamed : policy.networkPolicies.lookup chunk.ruleName = none := by
    by_contra named
    have own := mergeKey_of_present lower (Option.isSome_iff_ne_none.mpr named)
    rw [own] at chosen
    cases chosen
    exact differs rfl
  have absent : (mergeChunk lower policy chunk rule).networkPolicies.lookup chunk.ruleName = none := by
    rw [mergeChunk_folded lower chosen present]
    simp only
    rw [AList.lookup_insert_ne (Ne.symm differs), unnamed]
  rw [removeChunk_absent absent, granted_folded lower chosen present, foldRule_grants]
  rfl

/-- What a rule granted survives the loss of one binary exactly when that binary was not listed or is
    granted the same places elsewhere. -/
theorem own_restored_iff {places wider : Set (String × UInt32)} {binaries more : Set String}
    {elsewhere : Set Grant} {binary : String}
    (placesIn : places ⊆ wider) (binariesIn : binaries ⊆ more) :
    crossing wider (more \ {binary}) ∪ elsewhere = crossing places binaries ∪ elsewhere ↔
      crossing wider (more \ {binary}) ⊆ crossing places binaries ∪ elsewhere ∧
        (binary ∈ binaries → crossing places {binary} ⊆ elsewhere) := by
  constructor
  · intro equal
    constructor
    · rw [← equal]
      exact Set.subset_union_left
    · intro listedBefore grant member
      have before : grant ∈ crossing places binaries ∪ elsewhere :=
        Or.inl ⟨member.1, by rw [member.2]; exact listedBefore⟩
      rw [← equal] at before
      rcases before with kept | other
      · exact absurd member.2 kept.2.2
      · exact other
  · intro ⟨added, dropped⟩
    apply Set.Subset.antisymm
    · exact Set.union_subset added Set.subset_union_right
    · intro grant member
      rcases member with own | other
      · by_cases same : grant.binary = binary
        · subst same
          exact Or.inr (dropped own.2 ⟨own.1, rfl⟩)
        · exact Or.inl ⟨placesIn own.1, binariesIn own.2, same⟩
      · exact Or.inr other

theorem withdrawn_iff :
    granted lower (removeChunk (mergeChunk lower policy chunk rule) chunk) = granted lower policy ↔
      Withdrawable lower policy chunk rule := by
  unfold Withdrawable
  cases chosen : mergeKey lower policy chunk with
  | none =>
    rw [withdrawn_inserted chosen]
    exact Set.union_eq_right
  | some key =>
    obtain ⟨existing, present⟩ := mergeKey_present lower chosen
    have only : ∀ other, policy.networkPolicies.lookup key = some other → other = existing := by
      intro other found
      rw [present] at found
      exact (Option.some.inj found).symm
    by_cases own : key = chunk.ruleName
    · subst own
      rw [withdrawn_own present]
      have before : granted lower policy =
          crossing (reach lower existing.endpoints) (listed existing.binaries) ∪
            grantedElsewhere lower policy chunk.ruleName :=
        Keyed.union_of_present present
      simp only [if_true]
      rw [before]
      refine (own_restored_iff Set.subset_union_left Set.subset_union_left).trans ?_
      constructor
      · intro condition other found
        rw [only other found]
        exact condition
      · intro condition
        exact condition existing present
    · rw [withdrawn_other chosen present own, Set.union_eq_left]
      simp only [own, if_false]
      constructor
      · intro condition other found
        rw [only other found]
        exact condition
      · intro condition
        exact condition existing present

theorem run_withdrawal (wire : Wire Blob) (lower : String → String) (store : Store Blob)
    (sandboxId : String) (chunk : DraftChunkRecord Blob) (merged : SandboxPolicy) (hash : String) :
    ∃ withdrawn undone after,
      (removeChunkFromPolicy wire sandboxId chunk).run Store.exec
        (store.appendRevision sandboxId (wire.encodePolicy merged) hash) = (.ok withdrawn, undone) ∧
      currentPolicy wire undone sandboxId = .ok after ∧
      granted lower after = granted lower (removeChunk merged chunk) := by
  obtain ⟨now, decoded, same⟩ := wire.policy_round_trip merged
  have ready : Removable wire (store.appendRevision sandboxId (wire.encodePolicy merged) hash)
      sandboxId now :=
    ⟨_, store.getLatestPolicy_appendRevision sandboxId (wire.encodePolicy merged) hash, decoded⟩
  have ran : (removeChunkFromPolicy wire sandboxId chunk).run Store.exec
      (store.appendRevision sandboxId (wire.encodePolicy merged) hash) = _ :=
    run_removeChunkFromPolicy wire ready
  obtain ⟨after, current, unchanged⟩ := currentPolicy_appendRevision wire
    (store.appendRevision sandboxId (wire.encodePolicy merged) hash) sandboxId (removeChunk now chunk)
    (deterministicPolicyHash wire (removeChunk now chunk))
  refine ⟨_, _, after, ran, current, ?_⟩
  rw [granted_congr lower unchanged, granted_removeChunk_congr same]

theorem undoRestores_iff (store : Store Blob) (sandboxId : String) (chunk : DraftChunkRecord Blob) :
    UndoRestores wire lower store sandboxId chunk ↔
      ∀ rule policy, Mergeable wire store sandboxId chunk rule policy →
        Withdrawable lower policy chunk rule := by
  constructor
  · intro restores rule policy ready
    have approved := run_mergeChunkIntoPolicy wire lower ready
    obtain ⟨withdrawn, undone, after, ran, current, grants⟩ := run_withdrawal wire lower store sandboxId
      chunk (mergeChunk lower policy chunk rule) _
    have equal := restores _ _ _ _ _ _ approved ran ready.2 current
    rw [grants] at equal
    exact withdrawn_iff.mp equal
  · intro condition written withdrawn approved undone before after merged removed started ended
    obtain ⟨rule, policy, ready⟩ := mergeable_of_ok merged
    have same : policy = before := by
      have both := ready.2.symm.trans started
      exact Except.ok.inj both
    subst same
    rw [run_mergeChunkIntoPolicy wire lower ready] at merged
    cases merged
    obtain ⟨_, _, final, ran, current, grants⟩ := run_withdrawal wire lower store sandboxId chunk
      (mergeChunk lower policy chunk rule) _
    rw [ran] at removed
    cases removed
    rw [current] at ended
    cases ended
    rw [grants]
    exact withdrawn_iff.mpr (condition rule policy ready)

def gitProposal : NetworkPolicyRule :=
  { name := "allow_a_example_443", endpoints := [{ host := "a.example", port := 443 }],
    binaries := [{ path := "/usr/bin/git" }] }

def foldedChunk : DraftChunkRecord Message :=
  { id := "c2", sandboxId := "sb", status := .pending, ruleName := "allow_a_example_443",
    proposedRule := .rule gitProposal, host := "a.example", port := 443, binary := "/usr/bin/git" }

theorem not_undoRestores : ¬ UndoRestores plainWire String.toLower curlStore "sb" foldedChunk := by
  intro restores
  have ready : Mergeable plainWire curlStore "sb" foldedChunk gitProposal curlPolicy := ⟨rfl, rfl⟩
  have approved := run_mergeChunkIntoPolicy plainWire String.toLower ready
  obtain ⟨_, _, after, ran, current, grants⟩ := run_withdrawal plainWire String.toLower curlStore "sb"
    foldedChunk (mergeChunk String.toLower curlPolicy foldedChunk gitProposal) _
  have equal := restores _ _ _ _ _ _ approved ran rfl current
  have left : (⟨"a.example", 443, "/usr/bin/git"⟩ : Grant) ∈ granted String.toLower after := by
    rw [grants]
    decide +kernel
  rw [equal] at left
  exact absurd left (by decide +kernel)

end OpenShell.Server
