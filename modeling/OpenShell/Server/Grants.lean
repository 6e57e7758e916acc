import Mathlib.Data.Set.Insert
import OpenShell.Lib.KeyedUnion
import OpenShell.Server.Merge

namespace OpenShell.Server

open OpenShell.Policy

variable {Blob : Type}

structure Grant where
  host : String
  port : UInt32
  binary : String
deriving DecidableEq

section

variable (lower : String → String)

def reach (endpoints : List NetworkEndpoint) : Set (String × UInt32) :=
  {place | ∃ endpoint ∈ endpoints,
    lower endpoint.host = lower place.1 ∧ place.2 ∈ endpoint.effectivePorts}

def listed (binaries : List NetworkBinary) : Set String :=
  {path | ∃ binary ∈ binaries, binary.path = path}

def crossing (places : Set (String × UInt32)) (binaries : Set String) : Set Grant :=
  {grant | (grant.host, grant.port) ∈ places ∧ grant.binary ∈ binaries}

def ruleGrants (rule : NetworkPolicyRule) : Set Grant :=
  crossing (reach lower rule.endpoints) (listed rule.binaries)

/-- The triples granted by a policy: some entry has the endpoint and lists the binary. -/
def granted (policy : SandboxPolicy) : Set Grant :=
  Keyed.union (ruleGrants lower) policy.networkPolicies

def grantedElsewhere (policy : SandboxPolicy) (name : String) : Set Grant :=
  Keyed.unionExcept (ruleGrants lower) policy.networkPolicies name

/-- The proposed endpoints that are appended: those that match neither an endpoint already there nor
    a proposed one appended before. -/
def unmatched (present : List NetworkEndpoint) : List NetworkEndpoint → List NetworkEndpoint
  | [] => []
  | proposed :: rest =>
    if present.any (sameEndpoint lower proposed) then unmatched present rest
    else proposed :: unmatched (present ++ [proposed]) rest

end

section Decide

variable (lower : String → String)

def ruleAllows (rule : NetworkPolicyRule) (grant : Grant) : Bool :=
  rule.endpoints.any (fun endpoint => lower endpoint.host == lower grant.host &&
    endpoint.effectivePorts.contains grant.port) &&
  rule.binaries.any (fun binary => binary.path == grant.binary)

theorem ruleAllows_iff {rule : NetworkPolicyRule} {grant : Grant} :
    ruleAllows lower rule grant = true ↔ grant ∈ ruleGrants lower rule := by
  simp [ruleAllows, ruleGrants, crossing, reach, listed]

theorem policyAllows_iff {policy : SandboxPolicy} {grant : Grant} :
    policy.networkPolicies.entries.any (fun entry => ruleAllows lower entry.2 grant) = true ↔
      grant ∈ granted lower policy := by
  simp only [List.any_eq_true, ruleAllows_iff, granted, Keyed.union, Set.mem_ofPred_eq]
  constructor
  · rintro ⟨entry, member, allowed⟩
    exact ⟨entry.1, entry.2, AList.mem_lookup_iff.mpr member, allowed⟩
  · rintro ⟨name, rule, found, allowed⟩
    exact ⟨⟨name, rule⟩, AList.mem_lookup_iff.mp found, allowed⟩

instance (rule : NetworkPolicyRule) (grant : Grant) : Decidable (grant ∈ ruleGrants lower rule) :=
  decidable_of_iff _ (ruleAllows_iff lower)

instance (policy : SandboxPolicy) (grant : Grant) : Decidable (grant ∈ granted lower policy) :=
  decidable_of_iff _ (policyAllows_iff lower)

end Decide

theorem crossing_mono {places wider : Set (String × UInt32)} {binaries more : Set String}
    (placesIn : places ⊆ wider) (binariesIn : binaries ⊆ more) :
    crossing places binaries ⊆ crossing wider more :=
  fun _ member => ⟨placesIn member.1, binariesIn member.2⟩

theorem listed_append (binaries more : List NetworkBinary) :
    listed (binaries ++ more) = listed binaries ∪ listed more := by
  ext path
  simp only [listed, List.mem_append, Set.mem_ofPred_eq, Set.mem_union]
  constructor
  · intro present
    rcases present with ⟨binary, inFirst | inSecond, rfl⟩
    · exact Or.inl ⟨binary, inFirst, rfl⟩
    · exact Or.inr ⟨binary, inSecond, rfl⟩
  · intro present
    rcases present with ⟨binary, member, rfl⟩ | ⟨binary, member, rfl⟩
    · exact ⟨binary, Or.inl member, rfl⟩
    · exact ⟨binary, Or.inr member, rfl⟩

theorem listed_addBinary (binaries : List NetworkBinary) (binary : NetworkBinary) :
    listed (addBinary binaries binary) = listed binaries ∪ {binary.path} := by
  unfold addBinary
  split
  · rename_i already
    obtain ⟨existing, member, same⟩ := List.any_eq_true.mp already
    symm
    apply Set.union_eq_left.mpr
    intro path is_path
    rw [Set.mem_singleton_iff.mp is_path]
    exact ⟨existing, member, by simpa using same⟩
  · rw [listed_append]
    congr 1
    ext path
    simp [listed, eq_comm]

theorem listed_foldBinaries (proposed binaries : List NetworkBinary) :
    listed (proposed.foldl addBinary binaries) = listed binaries ∪ listed proposed := by
  induction proposed generalizing binaries with
  | nil => simp [listed]
  | cons binary rest ih =>
    have head : listed (binary :: rest) = {binary.path} ∪ listed rest := by
      rw [← List.singleton_append, listed_append]
      congr 1
      ext path
      simp [listed, eq_comm]
    rw [List.foldl_cons, ih, listed_addBinary, head, Set.union_assoc]

theorem listed_filter (binaries : List NetworkBinary) (path : String) :
    listed (binaries.filter fun binary => binary.path != path) = listed binaries \ {path} := by
  ext other
  simp only [listed, List.mem_filter, Set.mem_ofPred_eq, Set.mem_sdiff, Set.mem_singleton_iff]
  constructor
  · intro kept
    obtain ⟨binary, ⟨member, differs⟩, rfl⟩ := kept
    exact ⟨⟨binary, member, rfl⟩, by simpa using differs⟩
  · intro kept
    obtain ⟨⟨binary, member, rfl⟩, differs⟩ := kept
    exact ⟨binary, ⟨member, by simpa using differs⟩, rfl⟩

section

variable (lower : String → String)

theorem reach_append (endpoints more : List NetworkEndpoint) :
    reach lower (endpoints ++ more) = reach lower endpoints ∪ reach lower more := by
  ext place
  simp only [reach, List.mem_append, Set.mem_ofPred_eq, Set.mem_union]
  constructor
  · intro present
    rcases present with ⟨endpoint, inFirst | inSecond, covered⟩
    · exact Or.inl ⟨endpoint, inFirst, covered⟩
    · exact Or.inr ⟨endpoint, inSecond, covered⟩
  · intro present
    rcases present with ⟨endpoint, member, covered⟩ | ⟨endpoint, member, covered⟩
    · exact ⟨endpoint, Or.inl member, covered⟩
    · exact ⟨endpoint, Or.inr member, covered⟩

def withIps (endpoint : NetworkEndpoint) (ips : List String) : NetworkEndpoint :=
  { endpoint with allowedIps := ips }

theorem updateFirst_none {α : Type} {chosen : α → Bool} {change : α → α} {items : List α} :
    updateFirst chosen change items = none ↔ items.any chosen = false := by
  induction items with
  | nil => simp [updateFirst]
  | cons item rest ih =>
    simp only [updateFirst, List.any_cons, Bool.or_eq_false_iff]
    by_cases here : chosen item
    · simp [here]
    · simp [here, ih]

theorem updateFirst_map {α β : Type} {chosen : α → Bool} {change : α → α} (view : α → β)
    (kept : ∀ item, view (change item) = view item) {items updated : List α}
    (changed : updateFirst chosen change items = some updated) :
    updated.map view = items.map view := by
  induction items generalizing updated with
  | nil => cases changed
  | cons item rest ih =>
    simp only [updateFirst] at changed
    split at changed
    · cases changed
      simp [kept]
    · obtain ⟨tail, found, rfl⟩ := Option.map_eq_some_iff.mp changed
      simp [ih found]

def bare (endpoints : List NetworkEndpoint) : List NetworkEndpoint :=
  endpoints.map fun endpoint => withIps endpoint []

theorem reach_bare (endpoints : List NetworkEndpoint) :
    reach lower (bare endpoints) = reach lower endpoints := by
  ext place
  simp [reach, bare, withIps, NetworkEndpoint.effectivePorts]

theorem any_same_bare (proposed : NetworkEndpoint) (endpoints : List NetworkEndpoint) :
    (bare endpoints).any (sameEndpoint lower proposed) =
      endpoints.any (sameEndpoint lower proposed) := by
  rw [bare, List.any_map]
  rfl

theorem bare_addEndpoint (endpoints : List NetworkEndpoint) (proposed : NetworkEndpoint) :
    bare (addEndpoint lower endpoints proposed) =
      if endpoints.any (sameEndpoint lower proposed) then bare endpoints
      else bare endpoints ++ bare [proposed] := by
  unfold addEndpoint
  split
  · rename_i updated changed
    have matched : endpoints.any (sameEndpoint lower proposed) = true := by
      by_contra unmatchedHere
      rw [Bool.not_eq_true] at unmatchedHere
      rw [updateFirst_none.mpr unmatchedHere] at changed
      cases changed
    rw [if_pos matched]
    exact updateFirst_map (fun endpoint => withIps endpoint []) (by intro item; rfl) changed
  · rename_i unchanged
    rw [updateFirst_none] at unchanged
    simp [unchanged, bare]

theorem unmatched_congr {present other : List NetworkEndpoint} (same : bare present = bare other)
    (proposed : List NetworkEndpoint) :
    unmatched lower present proposed = unmatched lower other proposed := by
  induction proposed generalizing present other with
  | nil => rfl
  | cons endpoint rest ih =>
    have matches_same : present.any (sameEndpoint lower endpoint) =
        other.any (sameEndpoint lower endpoint) := by
      rw [← any_same_bare, same, any_same_bare]
    have extended : bare (present ++ [endpoint]) = bare (other ++ [endpoint]) := by
      simp only [bare, List.map_append] at same ⊢
      rw [same]
    simp only [unmatched, matches_same, ih same, ih extended]

theorem bare_append (endpoints more : List NetworkEndpoint) : bare (endpoints ++ more) = bare endpoints ++ bare more :=
  List.map_append

theorem bare_addEndpoint_unmatched (endpoints : List NetworkEndpoint) (endpoint : NetworkEndpoint)
    (proposed : List NetworkEndpoint) :
    bare (addEndpoint lower endpoints endpoint ++ unmatched lower (addEndpoint lower endpoints endpoint) proposed) =
      bare (endpoints ++ unmatched lower endpoints (endpoint :: proposed)) := by
  have added := bare_addEndpoint lower endpoints endpoint
  by_cases matched : endpoints.any (sameEndpoint lower endpoint)
  · rw [if_pos matched] at added
    rw [bare_append, bare_append, unmatched_congr lower added, added, unmatched, if_pos matched]
  · rw [if_neg matched, ← bare_append] at added
    rw [bare_append, unmatched_congr lower added, added, unmatched, if_neg matched,
      List.append_cons _ _ (unmatched _ _ _), ← bare_append]

/-- Folding endpoints in appends the unmatched ones, whatever it makes of the addresses. -/
theorem bare_foldEndpoints (proposed endpoints : List NetworkEndpoint) :
    bare (proposed.foldl (addEndpoint lower) endpoints) = bare (endpoints ++ unmatched lower endpoints proposed) := by
  induction proposed generalizing endpoints with
  | nil => simp [unmatched]
  | cons endpoint rest ih => rw [List.foldl_cons, ih, bare_addEndpoint_unmatched]

theorem reach_foldEndpoints (proposed endpoints : List NetworkEndpoint) :
    reach lower (proposed.foldl (addEndpoint lower) endpoints) =
      reach lower endpoints ∪ reach lower (unmatched lower endpoints proposed) := by
  rw [← reach_bare, bare_foldEndpoints, reach_bare, reach_append]

theorem unmatched_subset (proposed present : List NetworkEndpoint) :
    unmatched lower present proposed ⊆ proposed := by
  induction proposed generalizing present with
  | nil => simp [unmatched]
  | cons endpoint rest ih =>
    unfold unmatched
    split
    · exact List.Subset.trans (ih present) (List.subset_cons_self _ _)
    · exact List.cons_subset_cons _ (ih _)

theorem foldRule_grants (existing rule : NetworkPolicyRule) :
    ruleGrants lower (foldRule lower existing rule) =
      crossing (reach lower existing.endpoints ∪
          reach lower (unmatched lower existing.endpoints rule.endpoints))
        (listed existing.binaries ∪ listed rule.binaries) := by
  simp only [ruleGrants, foldRule, listed_foldBinaries, reach_foldEndpoints]

theorem granted_congr {first second : SandboxPolicy} (same : first.Same second) :
    granted lower first = granted lower second :=
  Keyed.union_congr same.lookup

variable {policy : SandboxPolicy} {chunk : DraftChunkRecord Blob} {rule : NetworkPolicyRule}

theorem granted_inserted (chosen : mergeKey lower policy chunk = none) :
    granted lower (mergeChunk lower policy chunk rule) = granted lower policy ∪ ruleGrants lower rule := by
  have absent := ((mergeKey_none_iff lower).mp chosen).1
  rw [mergeChunk_inserted lower chosen]
  unfold granted
  rw [Keyed.union_insert, Keyed.union_of_absent absent, Set.union_comm]

theorem granted_folded {key : String} {existing : NetworkPolicyRule}
    (chosen : mergeKey lower policy chunk = some key)
    (present : policy.networkPolicies.lookup key = some existing) :
    granted lower (mergeChunk lower policy chunk rule) =
      granted lower policy ∪ ruleGrants lower (foldRule lower existing rule) := by
  have wider : ruleGrants lower existing ⊆ ruleGrants lower (foldRule lower existing rule) := by
    rw [foldRule_grants]
    exact crossing_mono Set.subset_union_left Set.subset_union_left
  rw [mergeChunk_folded lower chosen present]
  unfold granted
  rw [Keyed.union_insert, Keyed.union_of_present present, Set.union_right_comm,
    Set.union_eq_right.mpr wider]

theorem granted_removed {existing : NetworkPolicyRule}
    (present : policy.networkPolicies.lookup chunk.ruleName = some existing) :
    granted lower (removeChunk policy chunk) =
      crossing (reach lower existing.endpoints) (listed existing.binaries \ {chunk.binary}) ∪
        grantedElsewhere lower policy chunk.ruleName := by
  have others : Keyed.unionExcept (ruleGrants lower) (removeChunk policy chunk).networkPolicies
      chunk.ruleName = grantedElsewhere lower policy chunk.ruleName :=
    Keyed.unionExcept_congr fun name differs => removeChunk_lookup_other differs
  have remaining : ruleGrants lower (withoutBinary chunk.binary existing) =
      crossing (reach lower existing.endpoints) (listed existing.binaries \ {chunk.binary}) := by
    simp only [ruleGrants, withoutBinary, listed_filter]
  have self := removeChunk_lookup_self present
  unfold granted
  by_cases empty : (withoutBinary chunk.binary existing).binaries.isEmpty
  · rw [if_pos empty] at self
    have none_left : crossing (reach lower existing.endpoints)
        (listed existing.binaries \ {chunk.binary}) = ∅ := by
      rw [← remaining]
      have noBinaries : (withoutBinary chunk.binary existing).binaries = [] := by simpa using empty
      ext grant
      simp [ruleGrants, crossing, noBinaries, listed]
    rw [Keyed.union_of_absent self, others, none_left, Set.empty_union]
  · rw [if_neg empty] at self
    rw [Keyed.union_of_present self, others, remaining]

end

end OpenShell.Server
