import OpenShell.Sandbox.RuleTriples
import OpenShell.Server.Approval
import OpenShell.Server.Landing

namespace OpenShell.Server

open OpenShell.Policy OpenShell.Sandbox OpenShell.Sandbox.PolicyRules

variable {Blob : Type} (engine : Rego.Engine) (lower : String → String)

/-! What a rule covers once another rule is folded into it. -/

/-- The endpoints of the folded rule, but for the addresses that are added to them. -/
def places (existing proposed : List NetworkEndpoint) : List NetworkEndpoint :=
  existing ++ unmatched lower existing proposed

/-- Where a proposed endpoint ends up: in the first endpoint taken for it, or as an endpoint of its own. -/
def place (existing proposed : List NetworkEndpoint) (endpoint : NetworkEndpoint) : Option NetworkEndpoint :=
  (places lower existing proposed).find? (sameEndpoint lower endpoint)

/-- An endpoint with addresses, its own or those of a proposed endpoint. -/
def Addressed (existing proposed : List NetworkEndpoint) (endpoint : NetworkEndpoint) : Prop :=
  (endpoint ∈ existing ∧ endpoint.allowedIps ≠ []) ∨
    ∃ added ∈ proposed, added.allowedIps ≠ [] ∧ place lower existing proposed added = some endpoint

def FoldCovers (existing rule : NetworkPolicyRule) (host : String) (port : UInt32) (path : String) : Prop :=
  (∃ endpoint ∈ places lower existing.endpoints rule.endpoints, port ∈ protoPorts endpoint ∧
    (coversHost engine endpoint.host false host = true ∨
      endpoint.host = "" ∧ Addressed lower existing.endpoints rule.endpoints endpoint)) ∧
  ∃ binary ∈ existing.binaries ++ rule.binaries, coversBinary engine binary.path path = true

section Folding

theorem sameEndpoint_self (endpoint : NetworkEndpoint) : sameEndpoint lower endpoint endpoint = true := by
  simp [sameEndpoint]

/-- A property of endpoints that does not look at their addresses. -/
def Unaddressed (property : NetworkEndpoint → Prop) : Prop :=
  ∀ endpoint ips, property (withIps endpoint ips) ↔ property endpoint

namespace Unaddressed

variable {property : NetworkEndpoint → Prop}

theorem exists_bare (unaddressed : Unaddressed property) (endpoints : List NetworkEndpoint) :
    (∃ endpoint ∈ bare endpoints, property endpoint) ↔ ∃ endpoint ∈ endpoints, property endpoint := by
  simp only [bare, List.mem_map, exists_exists_and_eq_and, unaddressed _ _]

theorem exists_congr (unaddressed : Unaddressed property) {first second : List NetworkEndpoint}
    (same : bare first = bare second) :
    (∃ endpoint ∈ first, property endpoint) ↔ ∃ endpoint ∈ second, property endpoint := by
  rw [← unaddressed.exists_bare, same, unaddressed.exists_bare]

theorem find_bare (unaddressed : Unaddressed property) (proposed : NetworkEndpoint) (endpoints : List NetworkEndpoint) :
    (∃ endpoint, (bare endpoints).find? (sameEndpoint lower proposed) = some endpoint ∧ property endpoint) ↔
      ∃ endpoint, endpoints.find? (sameEndpoint lower proposed) = some endpoint ∧ property endpoint := by
  have same : (sameEndpoint lower proposed) ∘ (fun endpoint => withIps endpoint []) = sameEndpoint lower proposed := rfl
  simp only [bare, List.find?_map, same, Option.map_eq_some_iff]
  constructor
  · intro shown
    obtain ⟨-, ⟨endpoint, found, rfl⟩, holds⟩ := shown
    exact ⟨endpoint, found, (unaddressed _ _).mp holds⟩
  · intro shown
    obtain ⟨endpoint, found, holds⟩ := shown
    exact ⟨_, ⟨endpoint, found, rfl⟩, (unaddressed _ _).mpr holds⟩

theorem find_congr (unaddressed : Unaddressed property) {first second : List NetworkEndpoint}
    (same : bare first = bare second) (proposed : NetworkEndpoint) :
    (∃ endpoint, first.find? (sameEndpoint lower proposed) = some endpoint ∧ property endpoint) ↔
      ∃ endpoint, second.find? (sameEndpoint lower proposed) = some endpoint ∧ property endpoint := by
  rw [← unaddressed.find_bare, same, unaddressed.find_bare]

end Unaddressed

theorem addAllowedIps_empty {added ips : List String} : added.foldl addAllowedIp ips = [] ↔ ips = [] ∧ added = [] := by
  simp only [List.eq_nil_iff_forall_not_mem, mem_foldl_addAllowedIp, not_or, forall_and]

/-- Folding an endpoint in gives its addresses to the endpoint it ends up in. -/
theorem addressed_addEndpoint {property : NetworkEndpoint → Prop} (unaddressed : Unaddressed property)
    (endpoints : List NetworkEndpoint) (added : NetworkEndpoint) :
    (∃ endpoint ∈ addEndpoint lower endpoints added, property endpoint ∧ endpoint.allowedIps ≠ []) ↔
      (∃ endpoint ∈ endpoints, property endpoint ∧ endpoint.allowedIps ≠ []) ∨
        added.allowedIps ≠ [] ∧
          ∃ endpoint, (endpoints ++ [added]).find? (sameEndpoint lower added) = some endpoint ∧ property endpoint := by
  have self := sameEndpoint_self lower added
  induction endpoints with
  | nil => simp [addEndpoint, updateFirst, self, and_comm]
  | cons endpoint rest ih =>
    by_cases here : sameEndpoint lower added endpoint = true
    · have folded : addEndpoint lower (endpoint :: rest) added =
          withIps endpoint (added.allowedIps.foldl addAllowedIp endpoint.allowedIps) :: rest := by
        simp [addEndpoint, updateFirst, here, withIps]
      have gained : (withIps endpoint (added.allowedIps.foldl addAllowedIp endpoint.allowedIps)).allowedIps ≠ [] ↔
          endpoint.allowedIps ≠ [] ∨ added.allowedIps ≠ [] := by
        rw [withIps, Ne, addAllowedIps_empty]
        tauto
      rw [folded]
      simp only [List.exists_mem_cons_iff, List.cons_append, List.find?_cons, here, Option.some.injEq,
        exists_eq_left', gained, unaddressed _ _]
      rw [and_or_left, or_right_comm, @and_comm (property endpoint) (added.allowedIps ≠ [])]
    · have kept : addEndpoint lower (endpoint :: rest) added = endpoint :: addEndpoint lower rest added := by
        unfold addEndpoint
        rw [updateFirst, if_neg here]
        cases updateFirst (sameEndpoint lower added) _ rest <;> rfl
      rw [kept, List.exists_mem_cons_iff, List.exists_mem_cons_iff, List.cons_append, List.find?_cons_of_neg here,
        or_assoc]
      exact or_congr_right ih

theorem place_first (endpoints : List NetworkEndpoint) (added : NetworkEndpoint) (rest : List NetworkEndpoint) :
    place lower endpoints (added :: rest) added = (endpoints ++ [added]).find? (sameEndpoint lower added) := by
  have ends : ((endpoints ++ [added]).find? (sameEndpoint lower added)).isSome = true := by
    simp [sameEndpoint_self]
  obtain ⟨endpoint, found⟩ := Option.isSome_iff_exists.mp ends
  unfold place places unmatched
  split
  · rename_i matched
    rw [List.any_eq_true, ← List.find?_isSome, Option.isSome_iff_exists] at matched
    obtain ⟨earlier, held⟩ := matched
    rw [List.find?_append, List.find?_append, held]
    rfl
  · rw [List.append_cons _ _ (unmatched _ _ _), List.find?_append, found]
    rfl

/-- The endpoints with addresses once others are folded in: those that have them, and those the others with
addresses end up in. -/
theorem addressed_foldEndpoints {property : NetworkEndpoint → Prop} (unaddressed : Unaddressed property)
    (proposed endpoints : List NetworkEndpoint) :
    (∃ endpoint ∈ proposed.foldl (addEndpoint lower) endpoints, property endpoint ∧ endpoint.allowedIps ≠ []) ↔
      (∃ endpoint ∈ endpoints, property endpoint ∧ endpoint.allowedIps ≠ []) ∨
        ∃ added ∈ proposed, added.allowedIps ≠ [] ∧
          ∃ endpoint, place lower endpoints proposed added = some endpoint ∧ property endpoint := by
  induction proposed generalizing endpoints with
  | nil => simp
  | cons added rest ih =>
    have later := unaddressed.find_congr lower (bare_addEndpoint_unmatched lower endpoints added rest)
    rw [List.foldl_cons, ih, addressed_addEndpoint lower unaddressed, ← place_first lower _ _ rest,
      List.exists_mem_cons_iff, or_assoc]
    refine or_congr_right (or_congr_right (exists_congr fun other => ?_))
    exact and_congr_right fun _ => and_congr_right fun _ => later other

end Folding

section Covering

variable {engine lower} {host : String} {port : UInt32} {path : String}

theorem coversHost_ips (pattern : String) (hasIps : Bool) (host : String) :
    coversHost engine pattern hasIps host = (coversHost engine pattern false host || (pattern == "" && hasIps)) := by
  unfold coversHost
  cases wild : hasWildcard pattern with
  | false => simp
  | true => simp [named_of_wildcard wild]

/-- A rule covers a connection by a name, or by a port of an endpoint that lists addresses alone. -/
theorem ruleCovers_iff {rule : NetworkPolicyRule} : ruleCovers engine rule host port path = true ↔
    ((∃ endpoint ∈ rule.endpoints, port ∈ protoPorts endpoint ∧ coversHost engine endpoint.host false host = true) ∨
      ∃ endpoint ∈ rule.endpoints, (port ∈ protoPorts endpoint ∧ endpoint.host = "") ∧ endpoint.allowedIps ≠ []) ∧
    ∃ binary ∈ rule.binaries, coversBinary engine binary.path path = true := by
  unfold ruleCovers coversEndpoint
  simp only [Bool.and_eq_true, List.any_eq_true]
  refine and_congr_left fun _ => ?_
  rw [← exists_or]
  refine exists_congr fun endpoint => ?_
  rw [coversHost_ips, ← and_or_left]
  simp only [Bool.or_eq_true, Bool.and_eq_true, beq_iff_eq, List.contains_iff_mem, Bool.not_eq_true',
    List.isEmpty_eq_false_iff]
  tauto

theorem foldCovers_iff {existing rule : NetworkPolicyRule} :
    ruleCovers engine (foldRule lower existing rule) host port path = true ↔
      FoldCovers engine lower existing rule host port path := by
  have named : Unaddressed fun endpoint =>
      port ∈ protoPorts endpoint ∧ coversHost engine endpoint.host false host = true := fun _ _ => Iff.rfl
  have nameless : Unaddressed fun endpoint => port ∈ protoPorts endpoint ∧ endpoint.host = "" := fun _ _ => Iff.rfl
  have binaries : (∃ binary ∈ (foldRule lower existing rule).binaries, coversBinary engine binary.path path = true) ↔
      ∃ binary ∈ existing.binaries ++ rule.binaries, coversBinary engine binary.path path = true := by
    have paths : ∀ binaries : List NetworkBinary, (∃ binary ∈ binaries, coversBinary engine binary.path path = true) ↔
        ∃ pattern ∈ listed binaries, coversBinary engine pattern path = true := fun binaries => by
      simp [listed]
    rw [paths, paths, foldRule, listed_foldBinaries, listed_append]
  rw [ruleCovers_iff, binaries, FoldCovers]
  refine and_congr_left fun _ => ?_
  rw [foldRule, named.exists_congr (bare_foldEndpoints lower rule.endpoints existing.endpoints),
    addressed_foldEndpoints lower nameless]
  constructor
  · intro covered
    rcases covered with ⟨endpoint, member, listed, covers⟩ | ⟨endpoint, member, ⟨listed, empty⟩, ips⟩ |
      ⟨added, member, ips, endpoint, found, listed, empty⟩
    · exact ⟨endpoint, member, listed, .inl covers⟩
    · exact ⟨endpoint, List.mem_append_left _ member, listed, .inr ⟨empty, .inl ⟨member, ips⟩⟩⟩
    · exact ⟨endpoint, List.mem_of_find?_eq_some found, listed, .inr ⟨empty, .inr ⟨added, member, ips, found⟩⟩⟩
  · intro covered
    rcases covered with ⟨endpoint, member, listed, covers | ⟨empty, ⟨present, ips⟩ | ⟨added, proposed, ips, found⟩⟩⟩
    · exact .inl ⟨endpoint, member, listed, covers⟩
    · exact .inr (.inl ⟨endpoint, present, ⟨listed, empty⟩, ips⟩)
    · exact .inr (.inr ⟨added, proposed, ips, endpoint, found, listed, empty⟩)

theorem foldCovers_of_existing {existing rule : NetworkPolicyRule}
    (covers : ruleCovers engine existing host port path = true) :
    FoldCovers engine lower existing rule host port path := by
  obtain ⟨endpoints, binary, member, path⟩ := ruleCovers_iff.mp covers
  refine ⟨?_, binary, List.mem_append_left _ member, path⟩
  rcases endpoints with ⟨endpoint, present, listed, covers⟩ | ⟨endpoint, present, ⟨listed, empty⟩, ips⟩
  · exact ⟨endpoint, List.mem_append_left _ present, listed, .inl covers⟩
  · exact ⟨endpoint, List.mem_append_left _ present, listed, .inr ⟨empty, .inl ⟨present, ips⟩⟩⟩

end Covering

/-- The rule that a chunk lands in covers the connection. -/
def LandingCovers (policy : SandboxPolicy) (chunk : DraftChunkRecord Blob) (rule : NetworkPolicyRule) (host : String)
    (port : UInt32) (path : String) : Prop :=
  match (mergeKey lower policy chunk).bind fun key => policy.networkPolicies.lookup key with
  | none => ruleCovers engine rule host port path = true
  | some existing => FoldCovers engine lower existing rule host port path

section Merging

variable {engine lower} {policy : SandboxPolicy} {chunk : DraftChunkRecord Blob} {rule : NetworkPolicyRule}
  {host : String} {port : UInt32} {path : String}

theorem grants_insert {name : String} : Grants engine { policy with
      networkPolicies := policy.networkPolicies.insert name rule } host port path ↔
    ruleCovers engine rule host port path = true ∨
      ∃ other held, other ≠ name ∧ policy.networkPolicies.lookup other = some held ∧
        ruleCovers engine held host port path = true := by
  unfold Grants
  constructor
  · intro granted
    obtain ⟨other, held, found, covers⟩ := granted
    by_cases same : other = name
    · rw [same] at found
      rw [AList.lookup_insert, Option.some.injEq] at found
      exact .inl (found ▸ covers)
    · rw [AList.lookup_insert_ne same] at found
      exact .inr ⟨other, held, same, found, covers⟩
  · intro granted
    rcases granted with covers | ⟨other, held, differs, found, covers⟩
    · exact ⟨name, rule, AList.lookup_insert _, covers⟩
    · exact ⟨other, held, (AList.lookup_insert_ne differs).trans found, covers⟩

theorem grants_merged : Grants engine (mergeChunk lower policy chunk rule) host port path ↔
    Grants engine policy host port path ∨ LandingCovers engine lower policy chunk rule host port path := by
  cases chosen : mergeKey lower policy chunk with
  | none =>
    have absent := ((mergeKey_none_iff lower).mp chosen).1
    rw [mergeChunk_inserted lower chosen, grants_insert, LandingCovers, chosen, or_comm]
    refine or_congr_left ⟨fun ⟨other, held, _, found, covers⟩ => ⟨other, held, found, covers⟩, ?_⟩
    intro granted
    obtain ⟨other, held, found, covers⟩ := granted
    refine ⟨other, held, ?_, found, covers⟩
    rintro rfl
    rw [absent] at found
    cases found
  | some key =>
    obtain ⟨existing, present⟩ := mergeKey_present lower chosen
    rw [mergeChunk_folded lower chosen present, grants_insert, LandingCovers, chosen, Option.bind_some, present,
      foldCovers_iff]
    constructor
    · intro granted
      rcases granted with covers | ⟨other, held, -, found, covers⟩
      · exact .inr covers
      · exact .inl ⟨other, held, found, covers⟩
    · intro granted
      rcases granted with ⟨other, held, found, covers⟩ | covers
      · by_cases same : other = key
        · rw [same, present, Option.some.injEq] at found
          exact .inl (foldCovers_of_existing (found ▸ covers))
        · exact .inr ⟨other, held, same, found, covers⟩
      · exact .inl covers

theorem grants_same {first second : SandboxPolicy} (same : first.Same second) :
    Grants engine first host port path ↔ Grants engine second host port path := by
  simp only [Grants, same.lookup]

end Merging

/-- Every connection that a proposed rule names is let through. -/
def GrantsProposal (policy : SandboxPolicy) (rule : NetworkPolicyRule) : Prop :=
  ∀ endpoint ∈ rule.endpoints, ∀ port ∈ endpoint.effectivePorts, ∀ binary ∈ rule.binaries,
    allowNetwork engine (protoToOpaDataJson policy) (tripleDocument endpoint.host port binary.path) = true

section Runs

variable {lower} {wire : Wire Blob} {store after : Store Blob} {sandboxId : String} {chunk : DraftChunkRecord Blob}
  {written : Nat × String}

/-- Once merged, a proposal is granted where the policy allowed its connections already, or the rule it landed in
covers them. -/
theorem approval_complete_iff
    (succeeded : (mergeChunkIntoPolicy wire lower sandboxId chunk).run Store.exec store = (.ok written, after)) :
    ∃ rule before now, wire.decodeRule chunk.proposedRule = .ok rule ∧
      currentPolicy wire store sandboxId = .ok before ∧ currentPolicy wire after sandboxId = .ok now ∧
      (GrantsProposal engine now rule ↔
        ∀ endpoint ∈ rule.endpoints, ∀ port ∈ endpoint.effectivePorts, ∀ binary ∈ rule.binaries,
          Grants engine before endpoint.host port binary.path ∨
            LandingCovers engine lower before chunk rule endpoint.host port binary.path) := by
  obtain ⟨rule, before, ready⟩ := mergeable_of_ok succeeded
  obtain ⟨now, decoded, same⟩ := currentPolicy_merged ready succeeded
  refine ⟨rule, before, now, ready.1, ready.2, decoded, ?_⟩
  simp only [GrantsProposal, allowNetwork_proto, grants_same same, grants_merged]

end Runs

section Example

def apiRule (port : UInt32) (ports : List UInt32) : NetworkPolicyRule :=
  { name := "api", endpoints := [{ host := "api.example.com", port, ports }], binaries := [{ path := "/usr/bin/curl" }] }

def apiChunk (port : UInt32) (ports : List UInt32) : DraftChunkRecord Message :=
  { id := "c1", sandboxId := "sb", status := .pending, ruleName := "api", proposedRule := .rule (apiRule port ports),
    host := "api.example.com", port := 443, binary := "/usr/bin/curl" }

def apiPolicy : SandboxPolicy := { networkPolicies := AList.singleton "api" (apiRule 443 [443]) }

def apiStore : Store Message :=
  { policies := ⟨[Store.newRevision "sb" 1 (.policy apiPolicy) ""], by decide⟩ }

theorem apiStore_mergeable (port : UInt32) (ports : List UInt32) :
    Mergeable plainWire apiStore "sb" (apiChunk port ports) (apiRule port ports) apiPolicy :=
  ⟨rfl, rfl⟩

theorem otherPort_granted : ∃ written after now,
    (mergeChunkIntoPolicy plainWire String.toLower "sb" (apiChunk 8443 [8443])).run Store.exec apiStore =
      (.ok written, after) ∧
    currentPolicy plainWire after "sb" = .ok now ∧ GrantsProposal textEngine now (apiRule 8443 [8443]) := by
  have ran := run_mergeChunkIntoPolicy plainWire String.toLower (apiStore_mergeable 8443 [8443])
  obtain ⟨rule, before, now, decoded, current, merged, complete⟩ := approval_complete_iff textEngine ran
  obtain rfl : apiRule 8443 [8443] = rule := Except.ok.inj decoded
  obtain rfl : apiPolicy = before := Except.ok.inj current
  refine ⟨_, _, now, ran, merged, complete.mpr ?_⟩
  intro endpoint member port listed binary ran
  obtain rfl := List.mem_singleton.mp member
  obtain rfl := List.mem_singleton.mp listed
  obtain rfl := List.mem_singleton.mp ran
  have chosen : (mergeKey String.toLower apiPolicy (apiChunk 8443 [8443])).bind
      (fun key => apiPolicy.networkPolicies.lookup key) = some (apiRule 443 [443]) := by decide +kernel
  right
  rw [LandingCovers, chosen]
  exact ⟨⟨{ host := "api.example.com", port := 8443, ports := [8443] }, by decide +kernel, by decide,
    .inl (by decide +kernel)⟩, { path := "/usr/bin/curl" }, by decide, by decide +kernel⟩

/-- The second port of the endpoint is lost: the endpoint that is there has the same first port. -/
theorem secondPort_not_granted : ¬∀ (store after : Store Message) (chunk : DraftChunkRecord Message) written rule now,
    (mergeChunkIntoPolicy plainWire String.toLower "sb" chunk).run Store.exec store = (.ok written, after) →
    plainWire.decodeRule chunk.proposedRule = .ok rule → rule.endpoints ≠ [] → rule.binaries ≠ [] →
    currentPolicy plainWire after "sb" = .ok now → GrantsProposal textEngine now rule := by
  intro complete
  have ready := apiStore_mergeable 443 [443, 8443]
  have ran := run_mergeChunkIntoPolicy plainWire String.toLower ready
  obtain ⟨now, decoded, same⟩ := currentPolicy_merged ready ran
  have granted := complete _ _ _ _ _ _ ran rfl (by decide) (by decide) decoded _ (List.mem_singleton_self _) 8443
    (by decide) _ (List.mem_singleton_self _)
  rw [allowNetwork_proto, grants_same same, ← allowNetwork_proto] at granted
  exact absurd granted (by decide +kernel)

end Example

end OpenShell.Server
