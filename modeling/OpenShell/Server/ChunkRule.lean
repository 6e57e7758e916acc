import OpenShell.Server.Grants

namespace OpenShell.Server

open OpenShell.Policy

variable {Blob : Type} (lower : String → String)

def DraftChunkRecord.grant (chunk : DraftChunkRecord Blob) : Grant :=
  ⟨chunk.host, chunk.portU32, chunk.binary⟩

/-- No rule but the one called `rule_name` covers the chunk's endpoint, and that one does if it is
    there. -/
structure SoleRule (chunk : DraftChunkRecord Blob) (policy : SandboxPolicy) : Prop where
  own : ∀ rule, policy.networkPolicies.lookup chunk.ruleName = some rule →
    (chunk.host, chunk.portU32) ∈ reach lower rule.endpoints
  others : ∀ name rule, name ≠ chunk.ruleName → policy.networkPolicies.lookup name = some rule →
    (chunk.host, chunk.portU32) ∉ reach lower rule.endpoints

variable {lower} {chunk : DraftChunkRecord Blob} {policy : SandboxPolicy} {rule : NetworkPolicyRule}

theorem SoleRule.congr {other : SandboxPolicy} (same : other.Same policy)
    (sole : SoleRule lower chunk policy) : SoleRule lower chunk other := by
  constructor
  · intro rule found
    rw [same.lookup] at found
    exact sole.own rule found
  · intro name rule differs found
    rw [same.lookup] at found
    exact sole.others name rule differs found

theorem coversChunk_iff {endpoint : NetworkEndpoint} :
    coversChunk lower chunk endpoint = true ↔
      lower endpoint.host = lower chunk.host ∧ chunk.portU32 ∈ endpoint.effectivePorts := by
  unfold coversChunk NetworkEndpoint.effectivePorts
  by_cases scalar : endpoint.ports.isEmpty
  · simp only [scalar, if_true, Bool.and_eq_true, beq_iff_eq, List.mem_singleton]
    exact and_congr_right fun _ => eq_comm
  · simp [scalar]

theorem soleRule_of_unclaimed (unclaimed : mergeKey lower policy chunk = none) :
    SoleRule lower chunk policy ∧ chunk.grant ∉ granted lower policy := by
  obtain ⟨absent, uncovered⟩ := (mergeKey_none_iff lower).mp unclaimed
  have nowhere : ∀ name rule, policy.networkPolicies.lookup name = some rule →
      (chunk.host, chunk.portU32) ∉ reach lower rule.endpoints := by
    intro name rule found ⟨endpoint, member, host, port⟩
    have covered := uncovered ⟨name, rule⟩ (AList.mem_lookup_iff.mp found) endpoint member
    rw [coversChunk_iff.mpr ⟨host, port⟩] at covered
    cases covered
  refine ⟨⟨?_, fun name rule _ found => nowhere name rule found⟩, ?_⟩
  · intro rule found
    rw [absent] at found
    cases found
  · intro ⟨name, rule, found, allowed⟩
    exact nowhere name rule found allowed.1

theorem SoleRule.elsewhere (sole : SoleRule lower chunk policy) :
    chunk.grant ∉ grantedElsewhere lower policy chunk.ruleName := by
  intro ⟨name, rule, differs, found, allowed⟩
  exact sole.others name rule differs found allowed.1

theorem SoleRule.mergeKey_absent (sole : SoleRule lower chunk policy)
    (absent : policy.networkPolicies.lookup chunk.ruleName = none) : mergeKey lower policy chunk = none := by
  apply (mergeKey_none_iff lower).mpr
  refine ⟨absent, ?_⟩
  intro ⟨name, rule⟩ member endpoint endpointIn
  have found : policy.networkPolicies.lookup name = some rule := AList.mem_lookup_iff.mpr member
  have differs : name ≠ chunk.ruleName := by
    intro same
    rw [same, absent] at found
    cases found
  cases covered : coversChunk lower chunk endpoint with
  | false => rfl
  | true =>
    obtain ⟨host, port⟩ := coversChunk_iff.mp covered
    exact absurd ⟨endpoint, endpointIn, host, port⟩ (sole.others name rule differs found)

theorem SoleRule.insert (sole : SoleRule lower chunk policy)
    (covers : (chunk.host, chunk.portU32) ∈ reach lower rule.endpoints) :
    SoleRule lower chunk
      { policy with networkPolicies := policy.networkPolicies.insert chunk.ruleName rule } := by
  constructor
  · intro found same
    rw [AList.lookup_insert] at same
    cases same
    exact covers
  · intro name found differs held
    rw [AList.lookup_insert_ne differs] at held
    exact sole.others name found differs held

theorem SoleRule.merge (sole : SoleRule lower chunk policy) (proposes : chunk.grant ∈ ruleGrants lower rule) :
    SoleRule lower chunk (mergeChunk lower policy chunk rule) ∧
      chunk.grant ∈ granted lower (mergeChunk lower policy chunk rule) := by
  cases present : policy.networkPolicies.lookup chunk.ruleName with
  | none =>
    have chosen := sole.mergeKey_absent present
    rw [mergeChunk_inserted lower chosen]
    refine ⟨sole.insert proposes.1, ?_⟩
    exact ⟨chunk.ruleName, rule, AList.lookup_insert _, proposes⟩
  | some existing =>
    have chosen : mergeKey lower policy chunk = some chunk.ruleName :=
      mergeKey_of_present lower (by rw [present]; rfl)
    have allowed : chunk.grant ∈ ruleGrants lower (foldRule lower existing rule) := by
      rw [foldRule_grants]
      exact ⟨Or.inl (sole.own existing present), Or.inr proposes.2⟩
    rw [mergeChunk_folded lower chosen present]
    refine ⟨sole.insert allowed.1, ?_⟩
    exact ⟨chunk.ruleName, _, AList.lookup_insert _, allowed⟩

theorem SoleRule.remove (sole : SoleRule lower chunk policy) :
    SoleRule lower chunk (removeChunk policy chunk) ∧
      chunk.grant ∉ granted lower (removeChunk policy chunk) := by
  cases present : policy.networkPolicies.lookup chunk.ruleName with
  | none =>
    rw [removeChunk_absent present]
    refine ⟨sole, ?_⟩
    unfold granted
    rw [Keyed.union_of_absent present]
    exact sole.elsewhere
  | some existing =>
    constructor
    · constructor
      · intro rule found
        rw [removeChunk_lookup_self present] at found
        split at found
        · cases found
        · cases found
          exact sole.own existing present
      · intro name rule differs found
        rw [removeChunk_lookup_other differs] at found
        exact sole.others name rule differs found
    · rw [granted_removed lower present]
      intro allowed
      rcases allowed with own | elsewhere
      · exact own.2.2 rfl
      · exact sole.elsewhere elsewhere

end OpenShell.Server
