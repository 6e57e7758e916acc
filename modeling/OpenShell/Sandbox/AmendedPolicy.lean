import OpenShell.Sandbox.AddedPolicy

namespace OpenShell.Sandbox

open Text Net

/-! What a connection gets when one policy is put in or grows, and all others stay. -/

def OpaEngine.replacing (engine : OpaEngine) (policies : PolicyObject) : OpaEngine :=
  { engine with networkPolicies := policies }

/-- No matching policy of a smaller name has an endpoint that configures the connection. -/
def SilentBelow (engine : OpaEngine) (input : NetworkInput) (name : String) : Prop :=
  ∀ entry ∈ engine.networkPolicies.entries, entry.1 < name → engine.policyMatches input entry.2 = true →
    ∀ endpoint ∈ entry.2.endpoints, engine.configures input endpoint = false

/-- Only the policy of this name differs, and it matches and configures at least what it did. -/
structure Amends (engine : OpaEngine) (policies : PolicyObject) (input : NetworkInput) (name : String)
    (landed : PolicyData) : Prop where
  others : ∀ entry : String × PolicyData, entry.1 ≠ name →
    (entry ∈ policies.entries ↔ entry ∈ engine.networkPolicies.entries)
  stored : (name, landed) ∈ policies.entries
  matched : ∀ held, (name, held) ∈ engine.networkPolicies.entries → engine.policyMatches input held = true →
    engine.policyMatches input landed = true
  configured : ∀ held, (name, held) ∈ engine.networkPolicies.entries →
    ∀ endpoint ∈ held.endpoints, engine.configures input endpoint = true →
      ∃ other ∈ landed.endpoints, engine.configures input other = true

section Amended

variable {engine : OpaEngine} {policies : PolicyObject} {input : NetworkInput} {name : String} {landed : PolicyData}

theorem Deciding.replaced {decider : String} {policy : PolicyData} {endpoint : EndpointData}
    (others : ∀ entry : String × PolicyData, entry.1 ≠ name →
      (entry ∈ policies.entries ↔ entry ∈ engine.networkPolicies.entries))
    (differs : decider ≠ name)
    (unheard : ∀ held, (name, held) ∈ policies.entries → name < decider → engine.policyMatches input held = true →
      ∀ endpoint ∈ held.endpoints, engine.configures input endpoint = false)
    (deciding : Deciding engine input decider policy endpoint) :
    Deciding (engine.replacing policies) input decider policy endpoint where
  stored := (others _ differs).mpr deciding.stored
  matched := deciding.matched
  configures := deciding.configures
  first := deciding.first
  smallest := by
    rintro ⟨other, held⟩ member smaller matched found foundIn
    by_cases own : other = name
    · subst own
      exact unheard held member smaller matched found foundIn
    · exact deciding.smallest _ ((others _ own).mp member) smaller matched found foundIn

theorem query_eq_none_iff : engine.queryEndpointConfig input = none ↔
    ∀ entry ∈ engine.networkPolicies.entries, engine.policyMatches input entry.2 = true →
      ∀ endpoint ∈ entry.2.endpoints, engine.configures input endpoint = false := by
  unfold OpaEngine.queryEndpointConfig
  rw [List.head?_eq_none_iff, matchingEndpointConfigs_eq, List.flatMap_eq_nil_iff]
  constructor
  · intro empty entry member matched endpoint inside
    have nothing := empty entry (List.mem_filter.mpr ⟨member, matched⟩)
    rw [policyEndpointConfigs_eq, List.filter_eq_nil_iff] at nothing
    simpa using nothing endpoint inside
  · intro silent entry member
    obtain ⟨stored, matched⟩ := List.mem_filter.mp member
    rw [policyEndpointConfigs_eq, List.filter_eq_nil_iff]
    intro endpoint inside
    rw [silent entry stored matched endpoint inside]
    simp

theorem policyForRequest_iff : engine.networkPolicyForRequest input = true ↔
    ∃ entry ∈ engine.networkPolicies.entries, engine.policyMatches input entry.2 = true := List.any_eq_true

theorem Amends.landed_of_mem (amends : Amends engine policies input name landed) {held : PolicyData}
    (member : (name, held) ∈ policies.entries) : held = landed := by
  have first := PolicyObject.get_of_mem member
  rw [PolicyObject.get_of_mem amends.stored] at first
  exact (Option.some.inj first).symm

/-- The answer stays where the policy has nothing to say to the connection. -/
theorem Amends.query_eq (amends : Amends engine policies input name landed)
    (quiet : engine.policyMatches input landed = true →
      ∀ endpoint ∈ landed.endpoints, engine.configures input endpoint = false) :
    (engine.replacing policies).queryEndpointConfig input = engine.queryEndpointConfig input := by
  have before : ∀ held, (name, held) ∈ engine.networkPolicies.entries → engine.policyMatches input held = true →
      ∀ endpoint ∈ held.endpoints, engine.configures input endpoint = false := by
    intro held stored matched endpoint inside
    by_contra configures
    obtain ⟨other, otherIn, speaks⟩ := amends.configured held stored endpoint inside (by simpa using configures)
    rw [quiet (amends.matched held stored matched) other otherIn] at speaks
    cases speaks
  have after : ∀ held, (name, held) ∈ policies.entries → engine.policyMatches input held = true →
      ∀ endpoint ∈ held.endpoints, engine.configures input endpoint = false := by
    intro held stored
    rw [amends.landed_of_mem stored]
    exact quiet
  cases answered : engine.queryEndpointConfig input with
  | none =>
    rw [query_eq_none_iff] at answered ⊢
    rintro ⟨other, held⟩ stored
    by_cases own : other = name
    · subst own
      exact after held stored
    · exact answered _ ((amends.others _ own).mp stored)
  | some endpoint =>
    obtain ⟨decider, policy, deciding⟩ := deciding_of_query answered
    have differs : decider ≠ name := by
      rintro rfl
      have silent := before policy deciding.stored deciding.matched endpoint deciding.mem_endpoints
      rw [deciding.configures] at silent
      cases silent
    exact query_of_deciding (deciding.replaced amends.others differs fun held stored _ => after held stored)

/-- The answer stays where a policy of a smaller name gives it. -/
theorem Amends.query_eq_of_heard (amends : Amends engine policies input name landed)
    (heard : ¬ SilentBelow engine input name) :
    engine.networkPolicyForRequest input = true ∧
      (engine.replacing policies).queryEndpointConfig input = engine.queryEndpointConfig input := by
  unfold SilentBelow at heard
  push Not at heard
  obtain ⟨entry, stored, smaller, matched, endpoint, inside, configures⟩ := heard
  refine ⟨policyForRequest_iff.mpr ⟨entry, stored, matched⟩, ?_⟩
  cases answered : engine.queryEndpointConfig input with
  | none => exact absurd (query_eq_none_iff.mp answered entry stored matched endpoint inside) configures
  | some answer =>
    obtain ⟨decider, policy, deciding⟩ := deciding_of_query answered
    have below : decider < name := by
      by_contra above
      exact configures (deciding.smallest entry stored (lt_of_lt_of_le smaller (not_lt.mp above)) matched endpoint inside)
    exact query_of_deciding (deciding.replaced amends.others (ne_of_lt below)
      fun held _ above => absurd (lt_trans below above) (lt_irrefl _))

/-- The policy gives the answer where no smaller one does. -/
theorem Amends.query_of_silent (amends : Amends engine policies input name landed)
    (silent : SilentBelow engine input name) (matched : engine.policyMatches input landed = true)
    {endpoint : EndpointData} (found : landed.endpoints.find? (engine.configures input) = some endpoint) :
    (engine.replacing policies).queryEndpointConfig input = some endpoint := by
  obtain ⟨configures, before, after, place, skipped⟩ := List.find?_eq_some_iff_append.mp found
  have deciding : Deciding (engine.replacing policies) input name landed endpoint := by
    refine ⟨amends.stored, matched, configures, ⟨before, after, place, ?_⟩, ?_⟩
    · intro other member
      show engine.configures input other = false
      simpa using skipped other member
    · rintro ⟨other, held⟩ stored smaller
      exact silent _ ((amends.others _ (ne_of_lt smaller)).mp stored) smaller
  exact query_of_deciding deciding

theorem Amends.query_none (amends : Amends engine policies input name landed)
    (denied : ¬ engine.networkPolicyForRequest input = true)
    (found : landed.endpoints.find? (engine.configures input) = none) :
    (engine.replacing policies).queryEndpointConfig input = none := by
  rw [query_eq_none_iff]
  rintro ⟨other, held⟩ stored matched endpoint inside
  by_cases own : other = name
  · subst own
    rw [amends.landed_of_mem stored] at inside
    show engine.configures input endpoint = false
    simpa using List.find?_eq_none.mp found endpoint inside
  · exact absurd (policyForRequest_iff.mpr ⟨_, (amends.others _ own).mp stored, matched⟩) denied

/-- A connection that did not pass passes now exactly where the policy matches it, is the first to give an answer,
    and gives a good one. -/
theorem Amends.passes_iff (amends : Amends engine policies input name landed) {Pass : Option EndpointData → Prop}
    (refused : ¬ (engine.networkPolicyForRequest input = true ∧ Pass (engine.queryEndpointConfig input))) :
    ((engine.replacing policies).networkPolicyForRequest input = true ∧
        Pass ((engine.replacing policies).queryEndpointConfig input)) ↔
      SilentBelow engine input name ∧ engine.policyMatches input landed = true ∧
        (landed.endpoints.find? (engine.configures input)).elim
          (¬ engine.networkPolicyForRequest input = true ∧ Pass none) fun endpoint => Pass (some endpoint) := by
  constructor
  · rintro ⟨allowed, passed⟩
    have silent : SilentBelow engine input name := by
      by_contra heard
      obtain ⟨earlier, same⟩ := amends.query_eq_of_heard heard
      rw [same] at passed
      exact refused ⟨earlier, passed⟩
    have matched : engine.policyMatches input landed = true := by
      by_contra unmatched
      rw [amends.query_eq fun matched => absurd matched unmatched] at passed
      obtain ⟨⟨other, held⟩, stored, fits⟩ := policyForRequest_iff.mp allowed
      by_cases own : other = name
      · subst own
        rw [amends.landed_of_mem stored] at fits
        exact unmatched fits
      · exact refused ⟨policyForRequest_iff.mpr ⟨_, (amends.others _ own).mp stored, fits⟩, passed⟩
    refine ⟨silent, matched, ?_⟩
    cases found : landed.endpoints.find? (engine.configures input) with
    | some endpoint =>
      rw [amends.query_of_silent silent matched found] at passed
      exact passed
    | none =>
      have denied : ¬ engine.networkPolicyForRequest input = true := by
        intro earlier
        rw [amends.query_eq fun _ endpoint inside => by simpa using List.find?_eq_none.mp found endpoint inside] at passed
        exact refused ⟨earlier, passed⟩
      rw [amends.query_none denied found] at passed
      exact ⟨denied, passed⟩
  · rintro ⟨silent, matched, decided⟩
    refine ⟨policyForRequest_iff.mpr ⟨_, amends.stored, matched⟩, ?_⟩
    cases found : landed.endpoints.find? (engine.configures input) with
    | some endpoint =>
      rw [found] at decided
      rw [amends.query_of_silent silent matched found]
      exact decided
    | none =>
      rw [found] at decided
      rw [amends.query_none decided.1 found]
      exact decided.2

end Amended

end OpenShell.Sandbox
