import OpenShell.Lib.Additions
import OpenShell.Server.Merge

namespace OpenShell.Server

open OpenShell.Policy Additions

/-! Where a proposal for one endpoint goes, in terms of the policy it is merged into. -/

variable {Blob : Type} (lower : String → String)

/-- The endpoint is for the host and the port. The row of a proposal holds the host in lower case, and the merge
    lowers it once more. -/
def coversPlace (host : String) (port : UInt32) (endpoint : NetworkEndpoint) : Bool :=
  lower endpoint.host == lower (lower host) &&
    (if endpoint.ports.isEmpty then endpoint.port == port else endpoint.ports.contains port)

/-- The rule of the given name, else the first one for the host and the port, else a new one without endpoints or
    binaries. -/
def landingRule (policy : SandboxPolicy) (ruleName host : String) (port : UInt32) : String × NetworkPolicyRule :=
  match policy.networkPolicies.lookup ruleName with
  | some rule => (ruleName, rule)
  | none =>
    match policy.networkPolicies.entries.find? fun entry => entry.2.endpoints.any (coversPlace lower host port) with
    | some entry => (entry.1, entry.2)
    | none => (ruleName, {})

/-- What becomes of an endpoint of the rule: it stays, it is given the addresses, or it is new. -/
inductive Slot where
  | kept (endpoint : NetworkEndpoint)
  | joined (endpoint : NetworkEndpoint)
  | fresh
deriving DecidableEq

/-- The addresses go to the first endpoint that counts as the same. If there is none, one comes last. -/
def slots (host : String) (port : UInt32) : List NetworkEndpoint → List Slot
  | [] => [.fresh]
  | endpoint :: rest =>
    if sameEndpoint lower { host, port } endpoint then .joined endpoint :: rest.map .kept
    else .kept endpoint :: slots host port rest

def Slot.filled (proposed : NetworkEndpoint) : Slot → NetworkEndpoint
  | .kept endpoint => endpoint
  | .joined endpoint => { endpoint with allowedIps := proposed.allowedIps.foldl addAllowedIp endpoint.allowedIps }
  | .fresh => proposed

variable {lower}

theorem mem_foldl_addAllowedIp {ips start : List String} {entry : String} :
    entry ∈ ips.foldl addAllowedIp start ↔ entry ∈ start ∨ entry ∈ ips := by
  have same : ips.foldl addAllowedIp start = addMissing [] start ips := by
    unfold addMissing
    congr 1
    funext held ip
    simp [addAllowedIp]
  rw [same, mem_addMissing]
  simp

theorem mem_slots_of_mem (lower : String → String) (host : String) (port : UInt32) {endpoints : List NetworkEndpoint}
    {endpoint : NetworkEndpoint} (member : endpoint ∈ endpoints) :
    Slot.kept endpoint ∈ slots lower host port endpoints ∨ Slot.joined endpoint ∈ slots lower host port endpoints := by
  induction endpoints with
  | nil => cases member
  | cons first rest ih =>
    unfold slots
    split
    · rcases List.mem_cons.mp member with here | behind
      · rw [here]
        exact .inr List.mem_cons_self
      · exact .inl (List.mem_cons_of_mem _ (List.mem_map_of_mem behind))
    · rcases List.mem_cons.mp member with here | behind
      · rw [here]
        exact .inl List.mem_cons_self
      · exact (ih behind).imp (List.mem_cons_of_mem _) (List.mem_cons_of_mem _)

theorem mem_of_mem_slots {host : String} {port : UInt32} {endpoints : List NetworkEndpoint} {endpoint : NetworkEndpoint}
    (member : Slot.kept endpoint ∈ slots lower host port endpoints ∨
      Slot.joined endpoint ∈ slots lower host port endpoints) : endpoint ∈ endpoints := by
  induction endpoints with
  | nil => simp [slots] at member
  | cons first rest ih =>
    unfold slots at member
    split at member
    · simp only [List.mem_cons, List.mem_map, Slot.kept.injEq, exists_eq_right, reduceCtorEq, and_false, exists_false,
        false_or, or_false, Slot.joined.injEq] at member
      rcases member with behind | here
      · exact List.mem_cons_of_mem _ behind
      · exact List.mem_cons.mpr (.inl here)
    · simp only [List.mem_cons, Slot.kept.injEq, reduceCtorEq, false_or] at member
      rcases member with (here | behind) | joined
      · exact List.mem_cons.mpr (.inl here)
      · exact List.mem_cons_of_mem _ (ih (.inl behind))
      · exact List.mem_cons_of_mem _ (ih (.inr joined))

theorem updateFirst_slots (endpoints : List NetworkEndpoint) (proposed : NetworkEndpoint) :
    (updateFirst (sameEndpoint lower proposed) (fun existing => { existing with
        allowedIps := proposed.allowedIps.foldl addAllowedIp existing.allowedIps }) endpoints).getD
        (endpoints ++ [proposed]) =
      (slots lower proposed.host proposed.port endpoints).map (Slot.filled proposed) := by
  induction endpoints with
  | nil => rfl
  | cons first rest ih =>
    have same : sameEndpoint lower { host := proposed.host, port := proposed.port } first =
        sameEndpoint lower proposed first := rfl
    unfold slots updateFirst
    rw [same]
    split
    · rw [Option.getD_some, List.map_cons, List.map_map]
      exact congrArg (_ :: ·) (List.map_id rest).symm
    · rw [List.map_cons, ← ih]
      cases updateFirst (sameEndpoint lower proposed) _ rest <;> rfl

theorem addEndpoint_eq_slots (endpoints : List NetworkEndpoint) (proposed : NetworkEndpoint) :
    addEndpoint lower endpoints proposed =
      (slots lower proposed.host proposed.port endpoints).map (Slot.filled proposed) := by
  rw [← updateFirst_slots]
  unfold addEndpoint
  split
  · rename_i changed
    rw [changed]
    rfl
  · rename_i unchanged
    rw [unchanged]
    rfl

section Merge

variable {policy : SandboxPolicy} {record : DraftChunkRecord Blob} {ruleName host : String} {port : UInt32}

/-- The row is for the place, under the name. -/
structure Records (lower : String → String) (record : DraftChunkRecord Blob) (ruleName host : String) (port : UInt32) :
    Prop where
  ruleName : record.ruleName = ruleName
  host : record.host = lower host
  port : record.portU32 = port

theorem coversChunk_eq (records : Records lower record ruleName host port) :
    coversChunk lower record = coversPlace lower host port := by
  funext endpoint
  unfold coversChunk coversPlace
  rw [records.host, records.port]

theorem landingRule_of_some (records : Records lower record ruleName host port) {key : String}
    {existing : NetworkPolicyRule} (chosen : mergeKey lower policy record = some key)
    (present : policy.networkPolicies.lookup key = some existing) :
    landingRule lower policy ruleName host port = (key, existing) := by
  unfold mergeKey at chosen
  rw [records.ruleName, coversChunk_eq records] at chosen
  unfold landingRule
  split at chosen
  · cases chosen
    rw [present]
  · rename_i absent
    have missing : policy.networkPolicies.lookup ruleName = none := by simpa using absent
    obtain ⟨entry, found, rfl⟩ := Option.map_eq_some_iff.mp chosen
    have stored := AList.mem_lookup_iff.mpr (List.mem_of_find?_eq_some found)
    rw [present] at stored
    cases stored
    rw [missing, found]

theorem landingRule_of_none (records : Records lower record ruleName host port)
    (chosen : mergeKey lower policy record = none) :
    landingRule lower policy ruleName host port = (ruleName, {}) := by
  obtain ⟨missing, uncovered⟩ := (mergeKey_none_iff lower).mp chosen
  rw [records.ruleName] at missing
  rw [coversChunk_eq records] at uncovered
  have found : (policy.networkPolicies.entries.find? fun entry =>
      entry.2.endpoints.any (coversPlace lower host port)) = none := by
    rw [List.find?_eq_none]
    intro entry member
    rw [Bool.not_eq_true, List.any_eq_false]
    intro endpoint inside
    rw [uncovered entry member endpoint inside]
    simp
  unfold landingRule
  rw [missing, found]

/-- What the merge leaves: the landing rule with the proposal in it, and the others as they were. -/
structure Landed (policy merged : SandboxPolicy) (name : String) (rule : NetworkPolicyRule) (landed : NetworkPolicyRule) :
    Prop where
  before : ∀ held, policy.networkPolicies.lookup name = some held → held = rule
  origin : policy.networkPolicies.lookup name = some rule ∨ rule.endpoints = []
  after : merged.networkPolicies.lookup name = some landed
  others : ∀ other, other ≠ name → merged.networkPolicies.lookup other = policy.networkPolicies.lookup other

theorem mergeChunk_landed (policy : SandboxPolicy) (records : Records lower record ruleName host port)
    (rule : NetworkPolicyRule) {proposed : NetworkEndpoint} {binary : NetworkBinary}
    (endpoint : rule.endpoints = [proposed]) (sameHost : proposed.host = host) (samePort : proposed.port = port)
    (only : rule.binaries = [binary]) :
    ∃ landed, Landed policy (mergeChunk lower policy record rule)
        (landingRule lower policy ruleName host port).1 (landingRule lower policy ruleName host port).2 landed ∧
      landed.endpoints =
        (slots lower host port (landingRule lower policy ruleName host port).2.endpoints).map (Slot.filled proposed) ∧
      landed.binaries = addBinary (landingRule lower policy ruleName host port).2.binaries binary := by
  subst sameHost samePort
  cases chosen : mergeKey lower policy record with
  | none =>
    rw [landingRule_of_none records chosen, mergeChunk_inserted lower chosen, records.ruleName]
    have missing := ((mergeKey_none_iff lower).mp chosen).1
    rw [records.ruleName] at missing
    refine ⟨rule, ⟨?_, .inr rfl, AList.lookup_insert policy.networkPolicies,
      fun other differs => AList.lookup_insert_ne differs⟩, endpoint, only⟩
    intro held present
    rw [missing] at present
    cases present
  | some key =>
    obtain ⟨existing, present⟩ := mergeKey_present lower chosen
    rw [landingRule_of_some records chosen present, mergeChunk_folded lower chosen present]
    refine ⟨foldRule lower existing rule, ⟨?_, .inl present, AList.lookup_insert policy.networkPolicies,
      fun other differs => AList.lookup_insert_ne differs⟩, ?_, ?_⟩
    · intro held again
      rw [present] at again
      exact (Option.some.inj again).symm
    · show rule.endpoints.foldl (addEndpoint lower) existing.endpoints = _
      rw [endpoint]
      exact addEndpoint_eq_slots existing.endpoints proposed
    · show rule.binaries.foldl addBinary existing.binaries = _
      rw [only]
      rfl

end Merge

end OpenShell.Server
