import OpenShell.Sandbox.RuleAgreement

namespace OpenShell.Sandbox

open Rego

namespace PolicyRules

/-! Why a connection is denied: one reason for each policy. -/

theorem intercalate_cons_ne_empty {delimiter text : String} {texts : List String} (written : text ≠ "") :
    delimiter.intercalate (text :: texts) ≠ "" := by
  cases texts with
  | nil => rwa [String.intercalate_singleton]
  | cons other texts =>
    rw [String.intercalate_cons_cons]
    simp [written]

theorem holds_of_inputAt {input value : Json} {part key : String} (found : inputAt input part key = some value) :
    holds (input.get part) = true := by
  obtain ⟨object, held, field⟩ := Option.bind_eq_some_iff.mp found
  rw [held]
  cases object with
  | bool value => cases field
  | _ => rfl

/-- The input has both sections, with what is known of the connection in them. -/
structure Describes (document : Json) (input : NetworkInput) : Prop where
  host : inputAt document "network" "host" = some (.string input.host)
  port : inputAt document "network" "port" = some (.integer input.port.toNat)
  path : inputAt document "exec" "path" = some (.string input.binaryPath)
  ancestors : inputAt document "exec" "ancestors" = some (.array (input.ancestors.map .string))
  cmdlinePaths : inputAt document "exec" "cmdline_paths" = some (.array (input.cmdlinePaths.map .string))

theorem describes_document (input : NetworkInput) : Describes input.document input := ⟨rfl, rfl, rfl, rfl, rfl⟩

def endpointReason (input : NetworkInput) (name : String) : String :=
  String.join ["endpoint ", input.host, ":", toString input.port.toNat, " not in policy '", name, "'"]

def binaryReason (input : NetworkInput) (name : String) : String :=
  String.join ["binary '", input.binaryPath, "' (ancestors: [", " -> ".intercalate input.ancestors, "], cmdline: [",
    ", ".intercalate input.cmdlinePaths, "]) not allowed in policy '", name, "'"]

section Reasons

variable (engine : Rego.Engine) (document : Json) (input : NetworkInput)

/-- A policy that does not have the endpoint misses it, and one that has it misses the binary. -/
def reasonFor (entry : String × Json) : String :=
  if endpointAllowedFor engine document entry.2 then binaryReason input entry.1 else endpointReason input entry.1

theorem reasonFor_ne_empty (entry : String × Json) : reasonFor engine document input entry ≠ "" := by
  unfold reasonFor
  split <;> simp [binaryReason, endpointReason]

variable {engine document input}

theorem endpointMiss_eq (described : Describes document input) (name : String) :
    endpointMiss engine document (.string name) = some (endpointReason input name) := by
  simp [endpointMiss, Engine.sprintf, described.host, described.port, engine.shown_string, engine.shown_integer,
    endpointReason]
  rfl

theorem binaryMiss_eq (described : Describes document input) (name : String) :
    binaryMiss engine document (" -> ".intercalate input.ancestors) (", ".intercalate input.cmdlinePaths)
      (.string name) = some (binaryReason input name) := by
  simp [binaryMiss, Engine.sprintf, described.path, engine.shown_string, binaryReason]

variable {data : Json} {fields : List (String × Json)}

theorem networkPolicies_object (policies : data.get "network_policies" = some (.object fields)) :
    networkPolicies data = fields.map fun entry => (.string entry.1, entry.2) := by
  rw [networkPolicies, policies]
  rfl

theorem endpointMisses_eq (described : Describes document input)
    (policies : data.get "network_policies" = some (.object fields)) :
    endpointMisses engine data document =
      (fields.filter fun entry => !endpointAllowedFor engine document entry.2).map
        (reasonFor engine document input) := by
  rw [endpointMisses, networkPolicies_object policies, List.filter_map, List.filterMap_map, ← List.filterMap_eq_map]
  apply List.filterMap_congr
  intro entry member
  have missed := List.of_mem_filter member
  simp only [Function.comp_apply, Bool.not_eq_true'] at missed
  simp [endpointMiss_eq described, reasonFor, missed]

/-- In a denied connection every policy that has the endpoint misses the binary. -/
theorem binaryMisses_eq (described : Describes document input)
    (policies : data.get "network_policies" = some (.object fields))
    (denied : networkPolicyForRequest engine data document = false) :
    binaryMisses engine data document (" -> ".intercalate input.ancestors) (", ".intercalate input.cmdlinePaths) =
      (fields.filter fun entry => endpointAllowedFor engine document entry.2).map
        (reasonFor engine document input) := by
  have missed : ∀ entry ∈ fields,
      (endpointAllowedFor engine document entry.2 && !binaryAllowedFor engine document entry.2) =
        endpointAllowedFor engine document entry.2 := by
    intro entry member
    by_cases endpoint : endpointAllowedFor engine document entry.2 = true
    · have binary : binaryAllowedFor engine document entry.2 = false := by
        rw [← Bool.not_eq_true]
        intro binary
        have listed : (Json.string entry.1, entry.2) ∈ networkPolicies data := by
          rw [networkPolicies_object policies]
          exact List.mem_map_of_mem member
        have allowed : networkPolicyForRequest engine data document = true :=
          (networkPolicyForRequest_iff engine).mpr ⟨_, listed, endpoint, binary⟩
        rw [denied] at allowed
        cases allowed
      simp [binary]
    · simp [endpoint]
  rw [binaryMisses, networkPolicies_object policies, List.filter_map, List.filterMap_map, ← List.filterMap_eq_map]
  simp only [Function.comp_def]
  rw [List.filter_congr missed]
  apply List.filterMap_congr
  intro entry member
  have endpoint := List.of_mem_filter member
  simp [binaryMiss_eq described, reasonFor, endpoint]

/-- The two comprehensions share out the policies. -/
theorem misses_perm (described : Describes document input)
    (policies : data.get "network_policies" = some (.object fields))
    (denied : networkPolicyForRequest engine data document = false) :
    (endpointMisses engine data document ++ binaryMisses engine data document
      (" -> ".intercalate input.ancestors) (", ".intercalate input.cmdlinePaths)).Perm
        (fields.map (reasonFor engine document input)) := by
  rw [endpointMisses_eq described policies, binaryMisses_eq described policies denied, ← List.map_append]
  exact (List.perm_append_comm.trans (List.filter_append_perm _ fields)).map _

/-- The input has both sections. -/
structure HasSections (document : Json) : Prop where
  network : holds (document.get "network") = true
  exec : holds (document.get "exec") = true

theorem Describes.hasSections (described : Describes document input) : HasSections document :=
  ⟨holds_of_inputAt described.host, holds_of_inputAt described.path⟩

theorem HasSections.bothSections (sections_ : HasSections document) : bothSections document = true := by
  rw [PolicyRules.bothSections, sections_.network, sections_.exec]
  rfl

theorem HasSections.denyReasons_eq (sections_ : HasSections document) (data : Json) :
    denyReasons engine data document = missReasons engine data document ++ noPolicies engine data document := by
  rw [denyReasons, missingNetwork, missingExec, sections_.network, sections_.exec]
  rfl

theorem denyReasons_of_denied (described : Describes document input)
    (policies : data.get "network_policies" = some (.object fields))
    (denied : networkPolicyForRequest engine data document = false) :
    denyReasons engine data document =
      [if fields = [] then "network connections not allowed by policy"
        else "; ".intercalate (endpointMisses engine data document ++ binaryMisses engine data document
          (" -> ".intercalate input.ancestors) (", ".intercalate input.cmdlinePaths))] := by
  have misses := (misses_perm described policies denied).length_eq
  rw [List.length_map] at misses
  rw [described.hasSections.denyReasons_eq, missReasons, noPolicies, described.hasSections.bothSections, denied,
    described.ancestors, described.cmdlinePaths, concat_strings, concat_strings, policies]
  cases fields with
  | nil =>
    rw [List.length_nil, List.length_eq_zero_iff] at misses
    simp [misses, count]
  | cons entry fields => simp [misses, count]

theorem denyReasons_of_allowed (sections_ : HasSections document) (data : Json)
    (allowed : networkPolicyForRequest engine data document = true) : denyReasons engine data document = [] := by
  rw [sections_.denyReasons_eq, missReasons, noPolicies, allowed]
  simp

/-- Policies that are missed are policies: the third definition and the fourth exclude each other. -/
theorem denyReasons_at_most_one (sections_ : HasSections document)
    (policies : data.get "network_policies" = some (.object fields)) :
    (denyReasons engine data document).length ≤ 1 := by
  rw [sections_.denyReasons_eq, List.length_append]
  cases fields with
  | nil =>
    have missed : missReasons engine data document = [] := by
      simp only [missReasons, endpointMisses, binaryMisses, networkPolicies_object policies]
      split
      · split
        · rfl
        · rfl
      · rfl
    rw [missed, List.length_nil, Nat.zero_add, noPolicies]
    split
    · exact Nat.le_refl 1
    · exact Nat.zero_le 1
  | cons entry fields =>
    have counted : noPolicies engine data document = [] := by
      simp [noPolicies, policies, count]
    rw [counted, List.length_nil, Nat.add_zero, missReasons]
    split
    · split
      · dsimp only
        split
        · exact Nat.le_refl 1
        · exact Nat.zero_le 1
      · exact Nat.zero_le 1
    · exact Nat.zero_le 1

/-- The definitions of the reason never disagree, an allowed connection has none, and a denied one that the input
describes has exactly one, with an entry for each policy. -/
theorem one_deny_reason (sections_ : HasSections document)
    (policies : data.get "network_policies" = some (.object fields)) :
    (denyReasons engine data document).length ≤ 1 ∧
    (networkAction engine data document = "allow" → denyReason engine data document = .undefined) ∧
    ∀ input, Describes document input → networkAction engine data document = "deny" →
      ∃ text reasons, denyReason engine data document = .value text ∧ text ≠ "" ∧
        reasons.Perm (fields.map (reasonFor engine document input)) ∧
        text = if fields = [] then "network connections not allowed by policy" else "; ".intercalate reasons := by
  refine ⟨denyReasons_at_most_one sections_ policies, ?_, ?_⟩
  · intro action
    rw [denyReason, denyReasons_of_allowed sections_ data ((networkAction_eq_allow_iff engine).mp action)]
    rfl
  · intro input described action
    have denied : networkPolicyForRequest engine data document = false := by
      rw [← Bool.not_eq_true, ← networkAction_eq_allow_iff, action]
      simp
    have perm := misses_perm described policies denied
    refine ⟨_, _, ?_, ?_, perm, rfl⟩
    · rw [denyReason, denyReasons_of_denied described policies denied, complete_single]
    · split
      · simp
      · rename_i some_policy
        cases listed : endpointMisses engine data document ++ binaryMisses engine data document
            (" -> ".intercalate input.ancestors) (", ".intercalate input.cmdlinePaths) with
        | nil =>
          rw [listed, List.nil_perm, List.map_eq_nil_iff] at perm
          exact absurd perm some_policy
        | cons reason reasons =>
          have member : reason ∈ fields.map (reasonFor engine document input) :=
            perm.mem_iff.mp (by rw [listed]; exact List.mem_cons_self)
          obtain ⟨entry, -, rfl⟩ := List.mem_map.mp member
          exact intercalate_cons_ne_empty (reasonFor_ne_empty engine document input entry)

def wgetInput : NetworkInput := ⟨"api.example.com", 443, "/usr/bin/wget", ["/bin/sh"], []⟩

theorem wget_denied_for_one_reason :
    ∃ text, denyReason textEngine apiData wgetInput.document = .value text ∧ text ≠ "" := by
  have described := describes_document wgetInput
  have denied : networkAction textEngine apiData wgetInput.document = "deny" := by decide +kernel
  obtain ⟨text, reasons, value, written, -, -⟩ :=
    (one_deny_reason described.hasSections rfl).2.2 wgetInput described denied
  exact ⟨text, value, written⟩

/-- Both sections, with nothing in them. -/
def bareInput : Json := .object [("exec", .object []), ("network", .object [])]

theorem bareInput_denied_without_reason :
    ¬∀ (engine : Rego.Engine) (data document : Json) (fields network exec : List (String × Json)),
      data.get "network_policies" = some (.object fields) → document.get "network" = some (.object network) →
      document.get "exec" = some (.object exec) → networkAction engine data document = "deny" →
      ∃ text, denyReason engine data document = .value text := by
  intro claim
  have evaluated : networkAction textEngine apiData bareInput = "deny" ∧
      denyReasons textEngine apiData bareInput = [] := by decide +kernel
  obtain ⟨text, value⟩ := claim textEngine apiData bareInput _ [] [] rfl rfl rfl evaluated.1
  rw [denyReason, evaluated.2] at value
  cases value

end Reasons

end PolicyRules

end OpenShell.Sandbox
