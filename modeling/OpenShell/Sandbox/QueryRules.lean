import OpenShell.Sandbox.LoadersAgree
import OpenShell.Sandbox.RuleAgreement

namespace OpenShell.Sandbox

open Rego OpenShell.Policy

/-! The query rules of a request: what a matcher that passed its checks asks, and what the rules make of it. -/

/-- A request as the engine is asked about it. -/
def OpaEngine.RequestData.document (request : OpaEngine.RequestData) : Json :=
  .object [("method", .string request.method), ("path", .string request.path),
    ("query_params", sortedJson textsJson (SortedMap.ofMap request.queryParams))]

namespace PolicyRules

/-- The forms of a matcher. -/
inductive Matcher : Json → Prop where
  | pattern (glob : String) : Matcher (.string glob)
  | glob {fields : List (String × Json)} {glob : String} (isGlob : (Json.object fields).get "glob" = some (.string glob))
      (noAny : (Json.object fields).get "any" = none) : Matcher (.object fields)
  | any {fields : List (String × Json)} {globs : List String} (noGlob : (Json.object fields).get "glob" = none)
      (isAny : (Json.object fields).get "any" = some (.array (globs.map .string))) (filled : globs ≠ []) :
      Matcher (.object fields)

theorem strings_of_asStr {items : List Json} (texts : (items.any fun item => item.asStr.isNone) = false) :
    ∃ strings : List String, items = strings.map .string := by
  induction items with
  | nil => exact ⟨[], rfl⟩
  | cons item items ih =>
    rw [List.any_cons, Bool.or_eq_false_iff] at texts
    obtain ⟨strings, rfl⟩ := ih texts.2
    cases item with
    | string text => exact ⟨text :: strings, rfl⟩
    | _ => exact absurd texts.1 (by simp [Json.asStr])

theorem strings_of_checkAny {loc : String} {matcher : Json} (checked : (checkAny loc matcher).errors = []) :
    ∃ globs : List String, matcher.get "any" = some (.array (globs.map .string)) ∧ globs ≠ [] := by
  unfold checkAny at checked
  split at checked
  · exact absurd checked (by simp [Findings.error])
  · rename_i listed found
    split at checked
    · exact absurd checked (by simp [Findings.error])
    · rename_i filled
      rw [errors_append, List.append_eq_nil_iff, errors_errorIf] at checked
      obtain ⟨globs, rfl⟩ := strings_of_asStr checked.1
      obtain ⟨value, held, isArray⟩ := Option.bind_eq_some_iff.mp found
      cases value with
      | array items =>
        obtain rfl := Option.some.inj isArray
        refine ⟨globs, held, ?_⟩
        rintro rfl
        exact filled rfl
      | _ => cases isArray

theorem matcher_of_checked {loc : String} {matcher : Json} (checked : (checkMatcher loc matcher).errors = []) :
    Matcher matcher := by
  cases matcher with
  | string glob => exact .pattern glob
  | object fields =>
    simp only [checkMatcher, checkMatcherObject] at checked
    split at checked
    · exact absurd checked (by simp [Findings.error])
    · split at checked
      · exact absurd checked (by simp [Findings.error])
      · rename_i oneForm
        split at checked
        · exact absurd checked (by simp [Findings.error])
        · split at checked
          · rename_i hasGlob
            have noAny : (Json.object fields).get "any" = none := by
              simpa [hasGlob] using oneForm
            split at checked
            · exact absurd checked (by simp [Findings.error])
            · rename_i glob found
              obtain ⟨value, held, isString⟩ := Option.bind_eq_some_iff.mp found
              cases value with
              | string text => exact .glob held noAny
              | _ => cases isString
          · rename_i noGlob
            obtain ⟨globs, isAny, filled⟩ := strings_of_checkAny checked
            exact .any (by simpa using noGlob) isAny filled
  | _ => exact absurd checked (by simp [checkMatcher, Findings.error])

/-- A value is one that the matcher asks for. -/
inductive Accepts (engine : Rego.Engine) (value : String) : Json → Prop where
  | pattern {glob : String} (matched : engine.globMatch glob [] value = true) : Accepts engine value (.string glob)
  | glob {fields : List (String × Json)} {glob : String} (isGlob : (Json.object fields).get "glob" = some (.string glob))
      (matched : engine.globMatch glob [] value = true) : Accepts engine value (.object fields)
  | any {fields : List (String × Json)} {globs : List Json} {glob : String}
      (isAny : (Json.object fields).get "any" = some (.array globs)) (member : .string glob ∈ globs)
      (matched : engine.globMatch glob [] value = true) : Accepts engine value (.object fields)

variable {engine : Rego.Engine} {request : OpaEngine.RequestData} {matcher : Json}

section Values

variable {value : String}

theorem getOr_fields {fields : List (String × Json)} {default : Json} (key : String) :
    getOr (some (.object fields)) (.string key) default = some (((Json.object fields).get key).getD default) :=
  getOr_object rfl

theorem glob_strings {pattern text : String} {delimiters : List String} :
    engine.glob (some (.string pattern)) delimiters (some (.string text)) = engine.globMatch pattern delimiters text := rfl

theorem ne_string {value : Json} {text : String} :
    engine.ne (some value) (some (.string text)) = true ↔ value ≠ .string text := by
  simp [Engine.ne, engine.compare_string]

/-- A matcher asks for a value by its glob, unless that is the empty text inside an object. -/
theorem queryValueMatches_iff (form : Matcher matcher) : queryValueMatches engine (.string value) matcher = true ↔
    matcher.get "glob" ≠ some (.string "") ∧ Accepts engine value matcher := by
  cases form with
  | pattern glob =>
    have matches_glob : queryValueMatches engine (.string value) (.string glob) = engine.globMatch glob [] value := by
      simp [queryValueMatches, Json.asStr, Json.asObject, glob_strings]
    rw [matches_glob]
    constructor
    · intro matched
      exact ⟨by simp [Json.get, Json.asObject], .pattern matched⟩
    · rintro ⟨-, accepted⟩
      cases accepted with
      | pattern matched => exact matched
  | @glob fields glob isGlob noAny =>
    have matches_glob : queryValueMatches engine (.string value) (.object fields) =
        (engine.ne (some (.string glob)) (some (.string "")) && engine.globMatch glob [] value) := by
      simp [queryValueMatches, Json.asStr, Json.asObject, getOr_fields, isGlob, noAny, glob_strings, inhabited, count]
    rw [matches_glob, Bool.and_eq_true, ne_string, isGlob]
    constructor
    · rintro ⟨written, matched⟩
      exact ⟨by simpa using written, .glob isGlob matched⟩
    · rintro ⟨written, accepted⟩
      refine ⟨by simpa using written, ?_⟩
      cases accepted with
      | glob found matched =>
        rw [isGlob] at found
        cases found
        exact matched
      | any isAny => exact absurd isAny (by simp [noAny])
  | @any fields globs noGlob isAny filled =>
    have matches_any : queryValueMatches engine (.string value) (.object fields) =
        globs.any fun glob => engine.globMatch glob [] value := by
      have nothing : engine.ne (some (.string "")) (some (.string "")) = false := by
        rw [← Bool.not_eq_true, ne_string]
        simp
      have listed : 0 < globs.length := List.length_pos_iff.mpr filled
      simp [queryValueMatches, Json.asStr, Json.asObject, getOr_fields, isAny, noGlob, nothing, inhabited, count,
        listed, elements_map, glob_strings, Function.comp_def]
    rw [matches_any, List.any_eq_true]
    constructor
    · rintro ⟨glob, member, matched⟩
      exact ⟨by simp [noGlob], .any isAny (List.mem_map_of_mem member) matched⟩
    · rintro ⟨-, accepted⟩
      cases accepted with
      | glob isGlob => exact absurd isGlob (by simp [noGlob])
      | any found member matched =>
        rw [isAny] at found
        cases found
        obtain ⟨glob, listed, same⟩ := List.mem_map.mp member
        cases same
        exact ⟨_, listed, matched⟩

end Values

section Keys

theorem get_sortedJson {β : Type} {json : β → Json} {sorted : SortedMap β} {key : String} :
    (sortedJson json sorted).get key = (sorted.map.lookup key).map json := by
  change (sorted.map.entries.map _).lookup key = (sorted.map.entries.dlookup key).map json
  induction sorted.map.entries with
  | nil => rfl
  | cons entry entries ih =>
    rw [List.map_cons, List.lookup_cons]
    by_cases same : key = entry.1
    · subst same
      rw [beq_self_eq_true, List.dlookup_cons_eq]
      rfl
    · rw [beq_false_of_ne same, List.dlookup_cons_ne _ _ same]
      exact ih

theorem values_of_request (key : String) :
    getOr (getOr (some request.document) (.string "query_params") (.object [])) (.string key) .null =
      some (((request.queryParams.lookup key).map textsJson).getD .null) := by
  have params : request.document.get "query_params" =
      some (sortedJson textsJson (SortedMap.ofMap request.queryParams)) := rfl
  rw [getOr_object rfl, params, Option.getD_some, getOr_object rfl, get_sortedJson, SortedMap.ofMap_lookup]

theorem absent_null : engine.ne (some .null) (some .null) = false := by simp [Engine.ne, engine.compare_null]

theorem present_texts (values : List String) : engine.ne (some (textsJson values)) (some .null) = true := by
  simp [Engine.ne, engine.compare_null, textsJson]

theorem queryKeyMatches_iff (form : Matcher matcher) (key : String) :
    queryKeyMatches engine request.document (.string key) matcher = true ↔
      ∃ values, request.queryParams.lookup key = some values ∧ values ≠ [] ∧
        ∀ value ∈ values, matcher.get "glob" ≠ some (.string "") ∧ Accepts engine value matcher := by
  unfold queryKeyMatches
  rw [values_of_request, Option.any_some]
  cases found : request.queryParams.lookup key with
  | none =>
    simp [absent_null]
  | some values =>
    have counted : inhabited (some (textsJson values)) = decide (values ≠ []) := by
      simp [inhabited, count, textsJson, List.length_pos_iff]
    have mismatch : queryValueMismatch engine (textsJson values) matcher =
        values.any fun value => !queryValueMatches engine (.string value) matcher := by
      simp [queryValueMismatch, textsJson, elements_map, Function.comp_def]
    simp [present_texts, counted, mismatch, queryValueMatches_iff form]

end Keys

/-- The matchers of a rule. -/
def configured (rule : Json) : List (String × Json) :=
  (((rule.get "allow").bind (Json.get "query")).bind Json.asObject).getD []

/-- Every configured key has a value, and every value of it is asked for. -/
def QueryMet (engine : Rego.Engine) (request : OpaEngine.RequestData) (rule : Json) : Prop :=
  ∀ entry ∈ configured rule, ∃ values, request.queryParams.lookup entry.1 = some values ∧ values ≠ [] ∧
    ∀ value ∈ values, Accepts engine value entry.2

section Rules

variable {rule : Json} {loc : String}

theorem configured_checked (checked : (checkQuery loc rule).errors = []) :
    ∀ entry ∈ configured rule, Matcher entry.2 := by
  intro entry member
  unfold configured at member
  unfold checkQuery at checked
  cases query : (rule.get "allow").bind (Json.get "query") with
  | none => simp [query] at member
  | some value =>
    rw [query] at member checked
    cases value with
    | object fields =>
      change (Findings.collect _).errors = [] at checked
      exact matcher_of_checked (errors_collect.mp checked _ (List.mem_map_of_mem member))
    | _ => cases member

theorem entries_queryRules {allow : List (String × Json)} (isAllow : rule.get "allow" = some (.object allow))
    (checked : (checkQuery loc rule).errors = []) :
    entries (((Json.object allow).get "query").getD (.object [])) =
      (configured rule).map fun entry => (.string entry.1, entry.2) := by
  unfold configured
  unfold checkQuery at checked
  rw [isAllow, Option.bind_some] at checked ⊢
  cases query : (Json.object allow).get "query" with
  | none => rfl
  | some value =>
    rw [query] at checked
    cases value with
    | null => rfl
    | object fields => rfl
    | _ => simp [Option.filter, Json.isNull, Findings.error] at checked

/-- What the three nested negations come to. -/
theorem queryParamsMatch_iff (checked : (checkQuery loc rule).errors = []) :
    queryParamsMatch engine request.document rule = true ↔ (∃ allow, rule.get "allow" = some (.object allow)) ∧
      QueryMet engine request rule ∧ ∀ entry ∈ configured rule, entry.2.get "glob" ≠ some (.string "") := by
  by_cases isAllow : ∃ allow, rule.get "allow" = some (.object allow)
  · obtain ⟨allow, isAllow⟩ := isAllow
    have keys : queryParamsMatch engine request.document rule = true ↔
        ∀ entry ∈ configured rule, queryKeyMatches engine request.document (.string entry.1) entry.2 = true := by
      rw [queryParamsMatch, isAllow, getOr_object rfl, Option.any_some, queryMismatch, entries_queryRules isAllow checked]
      simp
    rw [keys]
    constructor
    · intro met
      have each : ∀ entry ∈ configured rule, _ := fun entry member =>
        (queryKeyMatches_iff (configured_checked checked entry member) entry.1).mp (met entry member)
      refine ⟨⟨allow, isAllow⟩, fun entry member => ?_, fun entry member => ?_⟩
      · obtain ⟨values, found, some_value, asked⟩ := each entry member
        exact ⟨values, found, some_value, fun value listed => (asked value listed).2⟩
      · obtain ⟨values, -, some_value, asked⟩ := each entry member
        obtain ⟨value, listed⟩ := List.exists_mem_of_ne_nil values some_value
        exact (asked value listed).1
    · rintro ⟨-, met, written⟩ entry member
      obtain ⟨values, found, some_value, asked⟩ := met entry member
      exact (queryKeyMatches_iff (configured_checked checked entry member) entry.1).mpr
        ⟨values, found, some_value, fun value listed => ⟨written entry member, asked value listed⟩⟩
  · have undefined : getOr (rule.get "allow") (.string "query") (.object []) = none := by
      cases held : rule.get "allow" with
      | none => rfl
      | some value =>
        cases value with
        | object allow => exact absurd ⟨allow, held⟩ isAllow
        | _ => rfl
    rw [queryParamsMatch, undefined]
    simp [isAllow]

/-- The rules ask every value of every configured key, where the rule allows something at all and no object asks
for the empty glob. -/
theorem query_rules_agree_iff (checked : (checkQuery loc rule).errors = []) :
    (queryParamsMatch engine request.document rule = true ↔ QueryMet engine request rule) ↔
      (∃ allow, rule.get "allow" = some (.object allow)) ∧
        ((∀ entry ∈ configured rule, entry.2.get "glob" ≠ some (.string "")) ∨ ¬QueryMet engine request rule) := by
  rw [queryParamsMatch_iff checked]
  by_cases isAllow : ∃ allow, rule.get "allow" = some (.object allow)
  · by_cases met : QueryMet engine request rule <;> simp [isAllow, met]
  · have nothing : configured rule = [] := by
      unfold configured
      cases held : rule.get "allow" with
      | none => rfl
      | some value =>
        cases value with
        | object allow => exact absurd ⟨allow, held⟩ isAllow
        | _ => rfl
    have met : QueryMet engine request rule := by
      intro entry member
      rw [nothing] at member
      cases member
    simp [isAllow, met]

def emptyGlobRule : Json :=
  .object [("allow", .object [("method", .string "GET"), ("path", .string "**"),
    ("query", .object [("q", .object [("glob", .string "")])])])]

def emptyValueRequest : OpaEngine.RequestData := { method := "GET", path := "/", queryParams := AList.singleton "q" [""] }

theorem emptyGlob_met : QueryMet textEngine emptyValueRequest emptyGlobRule := by
  intro entry member
  obtain rfl : entry = ("q", .object [("glob", .string "")]) := List.mem_singleton.mp member
  refine ⟨[""], rfl, by simp, fun value listed => ?_⟩
  obtain rfl := List.mem_singleton.mp listed
  exact .glob rfl rfl

/-- An empty value that the empty glob matches is refused. -/
theorem emptyGlob_refused : ¬∀ (engine : Rego.Engine) (request : OpaEngine.RequestData) (loc : String) (rule : Json),
    (checkQuery loc rule).errors = [] →
      (queryParamsMatch engine request.document rule = true ↔ QueryMet engine request rule) := by
  intro agree
  have checked : (checkQuery "" emptyGlobRule).errors = [] := by decide +kernel
  have allowed := (agree textEngine emptyValueRequest "" emptyGlobRule checked).mpr emptyGlob_met
  have written := ((queryParamsMatch_iff checked).mp allowed).2.2 ("q", .object [("glob", .string "")])
  exact written (List.mem_singleton_self _) rfl

/-- The same glob as a plain text. -/
def plainGlobRule : Json :=
  .object [("allow", .object [("method", .string "GET"), ("path", .string "**"),
    ("query", .object [("q", .string "")])])]

theorem plainGlob_agrees : queryParamsMatch textEngine emptyValueRequest.document plainGlobRule = true ↔
    QueryMet textEngine emptyValueRequest plainGlobRule := by
  have checked : (checkQuery "" plainGlobRule).errors = [] := by decide +kernel
  refine (query_rules_agree_iff checked).mpr ⟨⟨_, rfl⟩, .inl ?_⟩
  intro entry member
  obtain rfl : entry = ("q", .string "") := List.mem_singleton.mp member
  simp [Json.get, Json.asObject]

end Rules

end PolicyRules

end OpenShell.Sandbox
