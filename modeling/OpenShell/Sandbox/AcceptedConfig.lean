import OpenShell.Sandbox.EndpointConfig
import OpenShell.Sandbox.PolicyData

namespace OpenShell.Sandbox

/-! What a document that passes the checks means to the proxy: which endpoints it then inspects. -/

def policiesOf (data : Json) : List (String × Json) := ((data.get "network_policies").bind Json.asObject).getD []

def endpointsOf (data : Json) : List Json := (policiesOf data).flatMap fun entry => (items "endpoints" entry.2).getD []

/-- The endpoint is recognised, has rules, and does not ask for the enforcement of SQL. -/
structure ReallyInspected (ep : Json) : Prop where
  recognised : (parseL7Config (endpointData ep)).isSome = true
  ruled : nonEmptyItems "rules" ep = true
  supported : ∀ config, parseL7Config (endpointData ep) = some config →
    ¬ (config.protocol = .sql ∧ config.enforcement = .enforce)

/-- What the checks let through and the later passes do not understand. -/
inductive Overlooked (ep : Json) : Prop
  | unknownProtocol (unknown : L7Protocol.parse (field "protocol" ep) = none)
  | unknownAccess (ruleless : nonEmptyItems "rules" ep = false) (given : field "access" ep ≠ "")
    (unknown : presetRules (field "access" ep) = none)
  | respeltSql (isSql : L7Protocol.parse (field "protocol" ep) = some .sql) (respelt : field "protocol" ep ≠ "sql")
    (enforced : field "enforcement" ep = "enforce")

/-! Findings. -/

section Findings

theorem errors_append (first second : Findings) : (first ++ second).errors = first.errors ++ second.errors := rfl

theorem errors_collect {findings : List Findings} :
    (Findings.collect findings).errors = [] ↔ ∀ finding ∈ findings, finding.errors = [] := by
  have gathered : ∀ start : Findings, (findings.foldl (· ++ ·) start).errors = [] ↔
      start.errors = [] ∧ ∀ finding ∈ findings, finding.errors = [] := by
    induction findings with
    | nil => simp
    | cons finding rest ih =>
      intro start
      rw [List.foldl_cons, ih, errors_append, List.append_eq_nil_iff]
      simp [and_assoc]
  simpa [Findings.collect] using gathered {}

theorem errors_errorIf {bad : Bool} {text : String} : (errorIf bad text).errors = [] ↔ bad = false := by
  cases bad <;> simp [errorIf, Findings.error]

/-- The checks of an endpoint that inspection rests on. -/
structure PassesChecks (ep : Json) : Prop where
  allowed : field "protocol" ep ≠ "" → nonEmptyItems "rules" ep = true ∨ field "access" ep ≠ ""
  audited : field "protocol" ep = "sql" → field "enforcement" ep ≠ "enforce"

theorem passesChecks_of_errors {loc : String} {ep : Json} (passed : (checkEndpoint loc ep).errors = []) :
    PassesChecks ep := by
  unfold checkEndpoint at passed
  simp only [errors_append, List.append_eq_nil_iff, errors_errorIf, Bool.and_eq_false_iff] at passed
  obtain ⟨⟨⟨⟨⟨⟨_, allowed⟩, _⟩, _⟩, audited⟩, _⟩, _⟩ := passed
  constructor
  · intro spoken
    rcases allowed with (silent | ruled) | given
    · exact absurd (by simpa using silent) spoken
    · exact Or.inl (by simpa using ruled)
    · exact Or.inr (by simpa using given)
  · intro isSql
    simpa [isSql] using audited

theorem passesChecks_of_validate {data : Json} (accepted : (validateL7Policies data).errors = []) :
    ∀ ep ∈ endpointsOf data, PassesChecks ep := by
  intro ep member
  obtain ⟨entry, inside, listed⟩ := List.mem_flatMap.mp member
  have policy : (checkPolicy entry.1 entry.2).errors = [] :=
    errors_collect.mp accepted _ (List.mem_map.mpr ⟨entry, inside, rfl⟩)
  obtain ⟨index, found⟩ := List.getElem?_of_mem listed
  have numbered := List.mk_mem_zipIdx_iff_getElem?.mpr found
  exact passesChecks_of_errors (errors_collect.mp policy _ (List.mem_map.mpr ⟨_, numbered, rfl⟩))

end Findings

/-! The passes after the checks. -/

section Passes

variable {ep : Json}

theorem items_modify (change : Json → Json) (policy : Json) :
    (items "endpoints" (policy.modify "endpoints" (Json.mapArray change))).getD [] =
      ((items "endpoints" policy).getD []).map change := by
  unfold items
  rw [Json.get_modify]
  cases policy.get "endpoints" with
  | none => rfl
  | some value => cases value <;> rfl

theorem policiesOf_onEndpoints (change : Json → Json) (data : Json) :
    policiesOf (onEndpoints change data) = (policiesOf data).map fun entry =>
      (entry.1, entry.2.modify "endpoints" (Json.mapArray change)) := by
  unfold policiesOf onEndpoints
  rw [Json.get_modify]
  cases data.get "network_policies" with
  | none => rfl
  | some value => cases value <;> rfl

theorem endpointsOf_onEndpoints (change : Json → Json) (data : Json) :
    endpointsOf (onEndpoints change data) = (endpointsOf data).map change := by
  unfold endpointsOf
  rw [policiesOf_onEndpoints, List.flatMap_map, List.map_flatMap]
  simp only [items_modify]

theorem get_expandAccess {key : String} (other : key ≠ "rules") : (expandAccess ep).get key = ep.get key := by
  unfold expandAccess
  split
  · rfl
  · split
    · exact Json.get_insert_of_ne other
    · rfl

theorem field_expandAccess {key : String} (other : key ≠ "rules") : field key (expandAccess ep) = field key ep := by
  unfold field
  rw [get_expandAccess other]

theorem isObject_of_field {key : String} (given : field key ep ≠ "") : ∃ fields, ep.asObject = some fields := by
  cases ep with
  | object fields => exact ⟨fields, rfl⟩
  | _ => exact absurd rfl given

theorem presetRules_ne_nil {access : String} {rules : List Json} (known : presetRules access = some rules) : rules ≠ [] := by
  unfold presetRules at known
  split_ifs at known
  all_goals
    cases known
    simp

/-- After the expansion an endpoint has rules if it had some, or if its access word is a preset. -/
theorem ruled_expandAccess (given : field "protocol" ep ≠ "") :
    nonEmptyItems "rules" (expandAccess ep) = true ↔
      nonEmptyItems "rules" ep = true ∨ (presetRules (field "access" ep)).isSome = true := by
  unfold expandAccess
  by_cases ruled : nonEmptyItems "rules" ep = true
  · simp [ruled]
  · cases known : presetRules (field "access" ep) with
    | none => simp [ruled]
    | some rules =>
      obtain ⟨fields, isObject⟩ := isObject_of_field given
      have filled := presetRules_ne_nil known
      have expanded : nonEmptyItems "rules" (ep.insert "rules" (.array rules)) = true := by
        simp [nonEmptyItems, items, Json.get_insert_self isObject, Json.asArray, filled]
      simp [ruled, expanded]

theorem nonEmpty_textField (key : String) (ep : Json) :
    nonEmpty (textField key ep) = if field key ep = "" then none else some (field key ep) := by
  unfold field textField nonEmpty
  cases (ep.get key).bind Json.asStr with
  | none => rfl
  | some text =>
    by_cases empty : text = ""
    · simp [empty]
    · simp [empty]

theorem parseL7Config_eq (given : field "protocol" ep ≠ "") :
    parseL7Config (endpointData ep) = (L7Protocol.parse (field "protocol" ep)).map fun protocol =>
      { protocol := protocol
        tls := parseTlsMode (endpointData ep)
        enforcement := if field "enforcement" ep = "enforce" then .enforce else .audit } := by
  have enforcement : (nonEmpty (endpointData ep).enforcement = some "enforce") = (field "enforcement" ep = "enforce") := by
    rw [show (endpointData ep).enforcement = textField "enforcement" ep from rfl, nonEmpty_textField]
    split
    · rename_i empty
      simp [empty]
    · simp
  have protocol : nonEmpty (endpointData ep).protocol = some (field "protocol" ep) := by
    rw [show (endpointData ep).protocol = textField "protocol" ep from rfl, nonEmpty_textField, if_neg given]
  unfold parseL7Config
  simp only [protocol, enforcement, bind, Option.bind_some, parseTlsMode]
  cases L7Protocol.parse (field "protocol" ep) <;> rfl

/-- For an endpoint that passed the checks, being inspected is the same as not being overlooked. -/
theorem reallyInspected_iff (given : field "protocol" ep ≠ "") (passes : PassesChecks ep) :
    ReallyInspected (expandAccess ep) ↔ ¬ Overlooked ep := by
  have kept : field "protocol" (expandAccess ep) = field "protocol" ep := field_expandAccess (by decide)
  have enforcement : field "enforcement" (expandAccess ep) = field "enforcement" ep := field_expandAccess (by decide)
  have given' : field "protocol" (expandAccess ep) ≠ "" := kept ▸ given
  have parsed := parseL7Config_eq given'
  rw [kept, enforcement] at parsed
  constructor
  · intro inspected overlooked
    cases overlooked with
    | unknownProtocol unknown =>
      have recognised := inspected.recognised
      rw [parsed, unknown] at recognised
      cases recognised
    | unknownAccess ruleless _ unknown =>
      have ruled := (ruled_expandAccess given).mp inspected.ruled
      simp [ruleless, unknown] at ruled
    | respeltSql isSql respelt enforced =>
      rw [isSql, enforced] at parsed
      exact inspected.supported _ parsed ⟨rfl, rfl⟩
  · intro clear
    cases protocol : L7Protocol.parse (field "protocol" ep) with
    | none => exact absurd (.unknownProtocol protocol) clear
    | some known =>
      rw [protocol] at parsed
      refine ⟨by rw [parsed]; rfl, ?_, ?_⟩
      · apply (ruled_expandAccess given).mpr
        by_cases ruled : nonEmptyItems "rules" ep = true
        · exact Or.inl ruled
        · right
          have named : field "access" ep ≠ "" := (passes.allowed given).resolve_left ruled
          cases preset : presetRules (field "access" ep) with
          | none => exact absurd (.unknownAccess (by simpa using ruled) named preset) clear
          | some rules => rfl
      · rintro config isConfig ⟨isSql, enforced⟩
        rw [parsed] at isConfig
        cases isConfig
        subst isSql
        have asked : field "enforcement" ep = "enforce" := by
          by_contra unasked
          simp [unasked] at enforced
        by_cases spelt : field "protocol" ep = "sql"
        · exact passes.audited spelt asked
        · exact clear (.respeltSql protocol spelt asked)

end Passes

/-- In an accepted document every endpoint with a protocol is inspected, exactly if none is overlooked. -/
theorem accepted_inspected_iff (data : Json) (accepted : (validateL7Policies data).errors = []) :
    (∀ ep ∈ endpointsOf (expandAccessPresets data), field "protocol" ep ≠ "" → ReallyInspected ep) ↔
      ∀ ep ∈ endpointsOf data, field "protocol" ep ≠ "" → ¬ Overlooked ep := by
  have expanded : endpointsOf (expandAccessPresets data) = (endpointsOf data).map expandAccess :=
    endpointsOf_onEndpoints expandAccess data
  have kept : ∀ ep, field "protocol" (expandAccess ep) = field "protocol" ep := fun ep =>
    field_expandAccess (by decide)
  rw [expanded]
  constructor
  · intro inspected ep member given
    have passes := passesChecks_of_validate accepted ep member
    exact (reallyInspected_iff given passes).mp
      (inspected (expandAccess ep) (List.mem_map_of_mem member) (by rw [kept]; exact given))
  · intro clear ep member given
    obtain ⟨original, inside, rfl⟩ := List.mem_map.mp member
    rw [kept] at given
    exact (reallyInspected_iff given (passesChecks_of_validate accepted original inside)).mpr
      (clear original inside given)

def inspectedEndpoint (protocol access enforcement : String) : Json :=
  .object [("access", .string access), ("enforcement", .string enforcement), ("host", .string "db.internal"),
    ("ports", .array [.integer 5432]), ("protocol", .string protocol)]

def oneEndpoint (ep : Json) : Json :=
  .object [("network_policies", .object [("db", .object [("endpoints", .array [ep])])])]

theorem endpointsOf_oneEndpoint (ep : Json) : endpointsOf (oneEndpoint ep) = [ep] := by
  simp [endpointsOf, policiesOf, oneEndpoint, items, Json.get, Json.asObject, Json.asArray]

/-- The check on SQL compares the word as it is written, the configuration reads it in any case. -/
theorem respelt_sql_accepted :
    ¬ ∀ data : Json, (validateL7Policies data).errors = [] →
      ∀ ep ∈ endpointsOf (expandAccessPresets data), field "protocol" ep ≠ "" → ReallyInspected ep := by
  intro inspected
  have accepted : (validateL7Policies (oneEndpoint (inspectedEndpoint "SQL" "full" "enforce"))).errors = [] := by
    decide +kernel
  have overlooked : Overlooked (inspectedEndpoint "SQL" "full" "enforce") :=
    .respeltSql (by decide +kernel) (by decide +kernel) (by decide +kernel)
  have member : inspectedEndpoint "SQL" "full" "enforce" ∈
      endpointsOf (oneEndpoint (inspectedEndpoint "SQL" "full" "enforce")) := by
    rw [endpointsOf_oneEndpoint]
    exact List.mem_singleton_self _
  have given : field "protocol" (inspectedEndpoint "SQL" "full" "enforce") ≠ "" := by decide +kernel
  have expanded : expandAccess (inspectedEndpoint "SQL" "full" "enforce") ∈
      endpointsOf (expandAccessPresets (oneEndpoint (inspectedEndpoint "SQL" "full" "enforce"))) := by
    unfold expandAccessPresets
    rw [endpointsOf_onEndpoints]
    exact List.mem_map_of_mem member
  have isInspected := inspected _ accepted _ expanded (by decide +kernel)
  exact (reallyInspected_iff given (passesChecks_of_validate accepted _ member)).mp isInspected overlooked

theorem rest_endpoint_inspected :
    (∀ ep ∈ endpointsOf (expandAccessPresets (oneEndpoint (inspectedEndpoint "rest" "read-only" "enforce"))),
        field "protocol" ep ≠ "" → ReallyInspected ep) ↔
      ∀ ep ∈ endpointsOf (oneEndpoint (inspectedEndpoint "rest" "read-only" "enforce")),
        field "protocol" ep ≠ "" → ¬ Overlooked ep :=
  accepted_inspected_iff _ (by decide +kernel)

end OpenShell.Sandbox
