import OpenShell.Lib.Maps
import OpenShell.Server.Merge

namespace OpenShell.Server

open OpenShell.Policy

variable {Blob : Type}

/-! Where the order of the rules of a policy decides what a merge makes of it. -/

/-- Steps that only add leave a value as it is exactly if each of them does. -/
theorem foldl_eq_self_iff {α β : Type} {step : β → α → β} (size : β → Nat)
    (grows : ∀ value item, step value item = value ∨ size value < size (step value item)) {items : List α}
    {value : β} : items.foldl step value = value ↔ ∀ item ∈ items, step value item = value := by
  have never_less : ∀ (items : List α) (value : β), size value ≤ size (items.foldl step value) := by
    intro items
    induction items with
    | nil => exact fun _ => le_refl _
    | cons item items ih =>
      intro value
      refine le_trans ?_ (ih (step value item))
      rcases grows value item with same | larger
      · rw [same]
      · exact larger.le
  induction items with
  | nil => simp
  | cons item items ih =>
    rw [List.foldl_cons, List.forall_mem_cons]
    rcases grows value item with same | larger
    · rw [same]
      simp only [true_and]
      exact ih
    · have later := never_less items (step value item)
      constructor
      · intro same
        rw [same] at later
        omega
      · rintro ⟨same, -⟩
        rw [same] at larger
        omega

section Steps

theorem addBinary_eq_iff {binaries : List NetworkBinary} {binary : NetworkBinary} :
    addBinary binaries binary = binaries ↔ ∃ existing ∈ binaries, existing.path = binary.path := by
  unfold addBinary
  split
  · rename_i present
    simpa using present
  · rename_i absent
    simpa using absent

theorem addBinary_grows (binaries : List NetworkBinary) (binary : NetworkBinary) :
    addBinary binaries binary = binaries ∨ binaries.length < (addBinary binaries binary).length := by
  unfold addBinary
  split
  · exact .inl rfl
  · right
    simp

theorem addAllowedIp_eq_iff {ips : List String} {ip : String} : addAllowedIp ips ip = ips ↔ ip ∈ ips := by
  unfold addAllowedIp
  split
  · rename_i present
    simpa using present
  · rename_i absent
    simpa using absent

theorem addAllowedIp_grows (ips : List String) (ip : String) :
    addAllowedIp ips ip = ips ∨ ips.length < (addAllowedIp ips ip).length := by
  unfold addAllowedIp
  split
  · exact .inl rfl
  · right
    simp

theorem addAllowedIps_eq_iff {proposed ips : List String} :
    proposed.foldl addAllowedIp ips = ips ↔ ∀ ip ∈ proposed, ip ∈ ips := by
  simp only [foldl_eq_self_iff List.length addAllowedIp_grows, addAllowedIp_eq_iff]

theorem addAllowedIps_grows (proposed ips : List String) :
    proposed.foldl addAllowedIp ips = ips ∨ ips.length < (proposed.foldl addAllowedIp ips).length := by
  induction proposed generalizing ips with
  | nil => exact .inl rfl
  | cons ip proposed ih =>
    rw [List.foldl_cons]
    rcases addAllowedIp_grows ips ip with same | larger
    · rw [same]
      exact ih ips
    · right
      rcases ih (addAllowedIp ips ip) with same | more
      · rwa [same]
      · exact larger.trans more

variable (lower : String → String)

/-- The endpoints, and the addresses they list. -/
def extent (endpoints : List NetworkEndpoint) : Nat :=
  (endpoints.map fun endpoint => 1 + endpoint.allowedIps.length).sum

/-- A proposed endpoint adds nothing if the first one like it lists all of its addresses. -/
def Held (endpoints : List NetworkEndpoint) (proposed : NetworkEndpoint) : Prop :=
  ∃ existing, endpoints.find? (sameEndpoint lower proposed) = some existing ∧
    ∀ ip ∈ proposed.allowedIps, ip ∈ existing.allowedIps

variable {lower}

theorem updateFirst_extent {chosen : NetworkEndpoint → Bool} {ips : List String} {endpoints updated : List NetworkEndpoint}
    (changed : updateFirst chosen
      (fun existing => { existing with allowedIps := ips.foldl addAllowedIp existing.allowedIps }) endpoints = some updated) :
    ∃ existing, endpoints.find? chosen = some existing ∧
      (updated = endpoints ↔ ∀ ip ∈ ips, ip ∈ existing.allowedIps) ∧
      (updated = endpoints ∨ extent endpoints < extent updated) := by
  induction endpoints generalizing updated with
  | nil => cases changed
  | cons endpoint endpoints ih =>
    rw [updateFirst] at changed
    split at changed
    · rename_i here
      cases changed
      refine ⟨endpoint, by rw [List.find?_cons_of_pos here], ?_, ?_⟩
      · rw [← addAllowedIps_eq_iff, List.cons.injEq]
        constructor
        · rintro ⟨same, -⟩
          exact congrArg NetworkEndpoint.allowedIps same
        · intro same
          rw [same]
          exact ⟨rfl, rfl⟩
      · rcases addAllowedIps_grows ips endpoint.allowedIps with same | larger
        · left
          rw [same]
        · right
          simp only [extent, List.map_cons, List.sum_cons]
          omega
    · rename_i elsewhere
      obtain ⟨tail, found, rfl⟩ := Option.map_eq_some_iff.mp changed
      obtain ⟨existing, first, same, grows⟩ := ih found
      refine ⟨existing, by rw [List.find?_cons_of_neg elsewhere, first], by rw [List.cons.injEq]; simpa using same, ?_⟩
      rcases grows with equal | larger
      · exact .inl (by rw [equal])
      · right
        simp only [extent, List.map_cons, List.sum_cons] at larger ⊢
        omega

theorem find?_of_updateFirst_none {α : Type} {chosen : α → Bool} {change : α → α} {items : List α}
    (unchanged : updateFirst chosen change items = none) : items.find? chosen = none := by
  induction items with
  | nil => rfl
  | cons item items ih =>
    rw [updateFirst] at unchanged
    split at unchanged
    · cases unchanged
    · rename_i elsewhere
      rw [List.find?_cons_of_neg elsewhere]
      exact ih (Option.map_eq_none_iff.mp unchanged)

theorem addEndpoint_cases (endpoints : List NetworkEndpoint) (proposed : NetworkEndpoint) :
    (addEndpoint lower endpoints proposed = endpoints ↔ Held lower endpoints proposed) ∧
      (addEndpoint lower endpoints proposed = endpoints ∨ extent endpoints < extent (addEndpoint lower endpoints proposed)) := by
  unfold addEndpoint Held
  split
  · rename_i updated changed
    obtain ⟨existing, first, same, grows⟩ := updateFirst_extent changed
    exact ⟨by simp [first, same], grows⟩
  · rename_i unchanged
    have missing := find?_of_updateFirst_none unchanged
    refine ⟨by simp [missing], .inr ?_⟩
    simp only [extent, List.map_append, List.sum_append, List.map_singleton, List.sum_singleton]
    omega

/-- A rule that has everything a proposed rule asks for. -/
structure Settled (lower : String → String) (existing rule : NetworkPolicyRule) : Prop where
  binaries : ∀ binary ∈ rule.binaries, ∃ held ∈ existing.binaries, held.path = binary.path
  endpoints : ∀ endpoint ∈ rule.endpoints, Held lower existing.endpoints endpoint

theorem foldRule_eq_iff {existing rule : NetworkPolicyRule} :
    foldRule lower existing rule = existing ↔ Settled lower existing rule := by
  have parts : foldRule lower existing rule = existing ↔
      rule.binaries.foldl addBinary existing.binaries = existing.binaries ∧
        rule.endpoints.foldl (addEndpoint lower) existing.endpoints = existing.endpoints := by
    constructor
    · intro same
      exact ⟨congrArg NetworkPolicyRule.binaries same, congrArg NetworkPolicyRule.endpoints same⟩
    · rintro ⟨binaries, endpoints⟩
      unfold foldRule
      rw [binaries, endpoints]
  rw [parts, foldl_eq_self_iff List.length addBinary_grows,
    foldl_eq_self_iff extent fun endpoints endpoint => (addEndpoint_cases endpoints endpoint).2]
  simp only [addBinary_eq_iff, (addEndpoint_cases _ _).1]
  exact ⟨fun both => ⟨both.1, both.2⟩, fun settled => ⟨settled.binaries, settled.endpoints⟩⟩

end Steps

section Order

variable {lower : String → String} {policy first second : SandboxPolicy} {chunk : DraftChunkRecord Blob}
  {rule : NetworkPolicyRule}

/-- A rule of the policy that the chunk may be folded into for its endpoint. -/
def Covering (lower : String → String) (policy : SandboxPolicy) (chunk : DraftChunkRecord Blob) (name : String)
    (existing : NetworkPolicyRule) : Prop :=
  policy.networkPolicies.lookup name = some existing ∧ existing.endpoints.any (coversChunk lower chunk) = true

/-- The same policy, with the rules in another order. -/
def withFirst (policy : SandboxPolicy) {entry : Σ _ : String, NetworkPolicyRule}
    (member : entry ∈ policy.networkPolicies.entries) : SandboxPolicy :=
  { policy with networkPolicies := ⟨entry :: policy.networkPolicies.entries.erase entry,
      (List.perm_nodupKeys (List.perm_cons_erase member)).mp policy.networkPolicies.nodupKeys⟩ }

theorem withFirst_same {entry : Σ _ : String, NetworkPolicyRule} (member : entry ∈ policy.networkPolicies.entries) :
    (withFirst policy member).Same policy :=
  ⟨rfl, rfl, rfl, rfl, (List.perm_cons_erase member).symm⟩

theorem mergeKey_named (same : first.Same policy) (named : (policy.networkPolicies.lookup chunk.ruleName).isSome) :
    mergeKey lower first chunk = some chunk.ruleName :=
  mergeKey_of_present lower (by rwa [same.lookup])

/-- The rule that comes first is the one the chunk is folded into. -/
theorem mergeKey_withFirst {name : String} {existing : NetworkPolicyRule}
    (unnamed : policy.networkPolicies.lookup chunk.ruleName = none) (covering : Covering lower policy chunk name existing) :
    mergeKey lower (withFirst policy (AList.mem_lookup_iff.mp covering.1)) chunk = some name := by
  have unnamedToo := (withFirst_same (AList.mem_lookup_iff.mp covering.1)).lookup chunk.ruleName
  rw [unnamed] at unnamedToo
  unfold mergeKey
  rw [unnamedToo, if_neg (by simp)]
  change (List.find? _ ((⟨name, existing⟩ : Σ _ : String, NetworkPolicyRule) :: _)).map Sigma.fst = some name
  simp only [List.find?_cons, covering.2, Option.map_some]

theorem mergeKey_covering {name : String} (unnamed : policy.networkPolicies.lookup chunk.ruleName = none)
    (same : first.Same policy) (chosen : mergeKey lower first chunk = some name) :
    ∃ existing, Covering lower policy chunk name existing := by
  unfold mergeKey at chosen
  rw [same.lookup, unnamed, if_neg (by simp)] at chosen
  obtain ⟨entry, found, rfl⟩ := Option.map_eq_some_iff.mp chosen
  have stored := AList.mem_lookup_iff.mpr (List.mem_of_find?_eq_some found)
  have covers := List.find?_some found
  exact ⟨entry.2, (same.lookup entry.1).symm.trans stored, covers⟩

/-- Policies that have the same rules under the same names are the same. -/
theorem merged_same (same : first.Same second)
    (rules : ∀ name, (mergeChunk lower first chunk rule).networkPolicies.lookup name =
      (mergeChunk lower second chunk rule).networkPolicies.lookup name) :
    (mergeChunk lower first chunk rule).Same (mergeChunk lower second chunk rule) := by
  have kept : ∀ policy : SandboxPolicy, (mergeChunk lower policy chunk rule).version = policy.version ∧
      (mergeChunk lower policy chunk rule).filesystem = policy.filesystem ∧
      (mergeChunk lower policy chunk rule).landlock = policy.landlock ∧
      (mergeChunk lower policy chunk rule).process = policy.process := by
    intro policy
    unfold mergeChunk
    split
    · split <;> exact ⟨rfl, rfl, rfl, rfl⟩
    · exact ⟨rfl, rfl, rfl, rfl⟩
  obtain ⟨version, filesystem, landlock, process⟩ := kept first
  obtain ⟨versionToo, filesystemToo, landlockToo, processToo⟩ := kept second
  refine ⟨?_, ?_, ?_, ?_, ?_⟩
  · rw [version, versionToo, same.version]
  · rw [filesystem, filesystemToo, same.filesystem]
  · rw [landlock, landlockToo, same.landlock]
  · rw [process, processToo, same.process]
  · exact Maps.perm_iff_lookup.mpr rules

theorem mergeKey_none_same (same : first.Same second) (chosen : mergeKey lower first chunk = none) :
    mergeKey lower second chunk = none := by
  obtain ⟨unnamed, uncovered⟩ := (mergeKey_none_iff lower).mp chosen
  refine (mergeKey_none_iff lower).mpr ⟨(same.lookup _).symm.trans unnamed, fun entry member => ?_⟩
  exact uncovered entry (same.networkPolicies.mem_iff.mpr member)

/-- Folding into a rule, whichever rule of the policy that is. -/
theorem merged_lookup {name : String} {existing : NetworkPolicyRule} (same : first.Same policy)
    (chosen : mergeKey lower first chunk = some name) (present : policy.networkPolicies.lookup name = some existing)
    (other : String) : (mergeChunk lower first chunk rule).networkPolicies.lookup other =
      if other = name then some (foldRule lower existing rule) else policy.networkPolicies.lookup other := by
  rw [mergeChunk_folded lower chosen ((same.lookup name).trans present)]
  split
  · rename_i here
    rw [here]
    exact AList.lookup_insert _
  · rename_i elsewhere
    exact (AList.lookup_insert_ne elsewhere).trans (same.lookup other)

theorem inserted_lookup (same : first.Same policy) (chosen : mergeKey lower first chunk = none) (other : String) :
    (mergeChunk lower first chunk rule).networkPolicies.lookup other =
      if other = chunk.ruleName then some rule else policy.networkPolicies.lookup other := by
  rw [mergeChunk_inserted lower chosen]
  split
  · rename_i here
    rw [here]
    exact AList.lookup_insert _
  · rename_i elsewhere
    exact (AList.lookup_insert_ne elsewhere).trans (same.lookup other)

/-- A merge into a rule that has all the chunk asks for changes nothing. -/
theorem merged_settled {name : String} {existing : NetworkPolicyRule} (same : first.Same policy)
    (chosen : mergeKey lower first chunk = some name) (present : policy.networkPolicies.lookup name = some existing)
    (settled : Settled lower existing rule) (other : String) :
    (mergeChunk lower first chunk rule).networkPolicies.lookup other = policy.networkPolicies.lookup other := by
  rw [merged_lookup same chosen present, foldRule_eq_iff.mpr settled]
  split
  · rename_i here
    rw [here, present]
  · rfl

/-- Every order of the rules gives the same policy exactly if the chunk has a rule of its name to be folded into, or
each of several rules that cover its endpoint has all it asks for already. -/
theorem merge_order_irrelevant_iff (lower : String → String) (policy : SandboxPolicy) (chunk : DraftChunkRecord Blob)
    (rule : NetworkPolicyRule) :
    (∀ first second : SandboxPolicy, first.Same policy → second.Same policy →
      (mergeChunk lower first chunk rule).Same (mergeChunk lower second chunk rule)) ↔
    (policy.networkPolicies.lookup chunk.ruleName).isSome = true ∨
      ∀ name existing other held, Covering lower policy chunk name existing →
        Covering lower policy chunk other held → name ≠ other → Settled lower existing rule := by
  constructor
  · intro alike
    by_cases named : (policy.networkPolicies.lookup chunk.ruleName).isSome = true
    · exact .inl named
    · right
      intro name existing other held covering coveringToo differs
      have unnamed : policy.networkPolicies.lookup chunk.ruleName = none := by simpa using named
      have chosen := mergeKey_withFirst unnamed covering
      have chosenToo := mergeKey_withFirst unnamed coveringToo
      have same := withFirst_same (AList.mem_lookup_iff.mp covering.1)
      have sameToo := withFirst_same (AList.mem_lookup_iff.mp coveringToo.1)
      -- one order folds the chunk into this rule, the other leaves the rule as it is
      have folded := (alike _ _ same sameToo).lookup name
      rw [merged_lookup same chosen covering.1, merged_lookup sameToo chosenToo coveringToo.1, if_pos rfl,
        if_neg differs, covering.1, Option.some.injEq] at folded
      exact foldRule_eq_iff.mp folded
  · intro certain first second same sameToo
    apply merged_same (same.trans sameToo.symm)
    intro key
    by_cases named : (policy.networkPolicies.lookup chunk.ruleName).isSome = true
    · obtain ⟨existing, present⟩ := Option.isSome_iff_exists.mp named
      rw [merged_lookup same (mergeKey_named same named) present,
        merged_lookup sameToo (mergeKey_named sameToo named) present]
    · have settled := certain.resolve_left named
      have unnamed : policy.networkPolicies.lookup chunk.ruleName = none := by simpa using named
      cases chosen : mergeKey lower first chunk with
      | none =>
        have chosenToo := mergeKey_none_same (same.trans sameToo.symm) chosen
        rw [inserted_lookup same chosen, inserted_lookup sameToo chosenToo]
      | some name =>
        obtain ⟨existing, covering⟩ := mergeKey_covering unnamed same chosen
        cases chosenToo : mergeKey lower second chunk with
        | none =>
          rw [mergeKey_none_same (sameToo.trans same.symm) chosenToo] at chosen
          cases chosen
        | some other =>
          obtain ⟨held, coveringToo⟩ := mergeKey_covering unnamed sameToo chosenToo
          by_cases one : name = other
          · subst one
            rw [merged_lookup same chosen covering.1, merged_lookup sameToo chosenToo covering.1]
          · rw [merged_settled same chosen covering.1 (settled _ _ _ _ covering coveringToo one),
              merged_settled sameToo chosenToo coveringToo.1 (settled _ _ _ _ coveringToo covering (Ne.symm one))]

end Order

section Example

def ruleFor (binary : String) : NetworkPolicyRule :=
  { endpoints := [{ host := "api.example.com", port := 443 }], binaries := [{ path := binary }] }

/-- Two rules for one endpoint. -/
def sharedEndpoint : SandboxPolicy :=
  { networkPolicies := (AList.singleton "second" (ruleFor "/usr/bin/wget")).insert "first" (ruleFor "/usr/bin/curl") }

def pythonChunk : DraftChunkRecord Unit where
  id := "chunk"
  sandboxId := "sb"
  status := .pending
  ruleName := "allow_python"
  proposedRule := ()
  host := "api.example.com"
  port := 443
  binary := "/usr/bin/python3"

/-- The binary is let in by whichever of the two rules comes first. -/
theorem sharedEndpoint_undecided : ¬∀ (lower : String → String) (policy first second : SandboxPolicy)
    (chunk : DraftChunkRecord Unit) (rule : NetworkPolicyRule), first.Same policy → second.Same policy →
      (mergeChunk lower first chunk rule).Same (mergeChunk lower second chunk rule) := by
  intro alike
  have first : Covering id sharedEndpoint pythonChunk "first" (ruleFor "/usr/bin/curl") := by
    constructor <;> decide +kernel
  have second : Covering id sharedEndpoint pythonChunk "second" (ruleFor "/usr/bin/wget") := by
    constructor <;> decide +kernel
  rcases (merge_order_irrelevant_iff id sharedEndpoint pythonChunk (ruleFor "/usr/bin/python3")).mp
      fun one two same sameToo => alike id sharedEndpoint one two pythonChunk _ same sameToo with named | settled
  · exact absurd named (by decide +kernel)
  · obtain ⟨held, member, path⟩ := (settled _ _ _ _ first second (by decide)).binaries { path := "/usr/bin/python3" }
      (List.mem_singleton_self _)
    obtain rfl := List.mem_singleton.mp member
    exact absurd path (by decide)

end Example

end OpenShell.Server
