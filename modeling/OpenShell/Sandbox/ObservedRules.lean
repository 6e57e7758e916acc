import OpenShell.Lib.Glob
import OpenShell.Sandbox.DenialDrafts
import OpenShell.Sandbox.RunningPolicy

namespace OpenShell.Sandbox

open OpenShell.Policy Text

/-! What the rules for the requests that were seen allow, as the policy engine reads them. -/

/-- What is relied on of the built-in functions: a glob is read by the grammar of globs, and a text without letters is its
own upper case. -/
structure Builtins.Documented (builtins : Builtins) : Prop where
  glob : ∀ pattern text, builtins.globMatch pattern ["/"] text = true ↔ Glob.Matches '/' false pattern.toList text.toList
  upper : ∀ text, (∀ c ∈ text.toList, c.toNat < 128 ∧ c.isAlpha = false) → builtins.upper text = text

namespace Mapper

def observedPath (raw : List Char) : List Char := raw.takeWhile (· ≠ '?')

/-- The segments differ in the last alone, and that looked like an identifier. -/
structure DiffersInId (path observed : List Char) : Prop where
  count : (split '/' path).length = (split '/' observed).length
  others : (split '/' path).dropLast = (split '/' observed).dropLast
  identifier : looksLikeId ((split '/' observed).getLast?.getD []) = true

def Observed (engine : OpaEngine) (sample : String × String) (request : OpaEngine.RequestData) : Prop :=
  engine.builtins.upper request.method = engine.builtins.upper sample.1 ∧
    (request.path.toList = observedPath sample.2.toList ∨
      DiffersInId request.path.toList (observedPath sample.2.toList))

/-- The endpoint drafted for the samples, as the engine is given it. -/
def draftedEndpoint (host : String) (port : UInt32) (allowedIps : List String) (samples : List (String × String)) :
    EndpointData :=
  shownEndpoint (proposedEndpoint host port allowedIps true (buildL7Rules samples))

/-- The endpoint allows what was observed, and no more. -/
structure GrantsObserved (engine : OpaEngine) (endpoint : EndpointData) (samples : List (String × String)) : Prop where
  granted : ∀ sample ∈ samples, ∀ queryParams, engine.requestAllowedForEndpoint
    ⟨sample.1, String.ofList (observedPath sample.2.toList), queryParams⟩ endpoint = true
  only : ∀ request, engine.requestAllowedForEndpoint request endpoint = true →
    ∃ sample ∈ samples, Observed engine sample request

/-- What of a path is left in its rule. -/
def keptPart (raw : List Char) : List Char :=
  let segments := split '/' (observedPath raw)
  if 1 < segments.length && looksLikeId (segments.getLast?.getD []) then join ['/'] segments.dropLast
  else observedPath raw

/-- The path is one segment that looks like an identifier, and as a glob it matches itself, and single segments alone. -/
structure LoneId (path : List Char) : Prop where
  identifier : looksLikeId path = true
  single : '/' ∉ path
  own : Glob.Matches '/' false path path
  others : ∀ text, Glob.Matches '/' false path text → '/' ∉ text

/-- Nothing in the sample is read as more than itself. -/
structure StandsForItself (sample : String × String) : Prop where
  method : sample.1 ≠ "*"
  path : Glob.Plain (keptPart sample.2.toList) ∨ LoneId (observedPath sample.2.toList)

/-! The rules as the engine reads them. -/

section Rules

variable {samples : List (String × String)}

theorem mem_buildL7Rules {rule : L7Rule} : rule ∈ buildL7Rules samples ↔ ∃ sample ∈ samples,
    rule = { allow := some { method := sample.1, path := String.ofList (generalisePath sample.2.toList) } } := by
  unfold buildL7Rules
  simp only [List.mem_map, List.mem_mergeSort, List.mem_dedup]
  constructor
  · intro given
    obtain ⟨_, ⟨sample, member, rfl⟩, rfl⟩ := given
    exact ⟨sample, member, rfl⟩
  · intro given
    obtain ⟨sample, member, rfl⟩ := given
    exact ⟨_, ⟨sample, member, rfl⟩, rfl⟩

theorem allowData_allow (method path : String) :
    allowData (protoRuleJson { allow := some { method, path } }) =
      { method := some method, path := some path, command := some "", query := [] } := by
  have isProto : (protoRuleJson { allow := some { method, path } }).get "allow" = some (protoAllowJson { method, path }) :=
    rfl
  have noQuery : (SortedMap.ofFinite (∅ : Finmap fun _ : String => L7QueryMatcher)).map.entries = [] := by
    apply List.eq_nil_iff_forall_not_mem.mpr
    intro entry member
    exact absurd (mem_ofFinite member) (Multiset.notMem_zero entry)
  simp only [allowData, isProto, Option.getD_some, protoAllowJson, textField, get_present_cons, get_present_nil,
    String.reduceEq, if_true, if_false, Option.none_or, Option.or_none, mapPiece_asObject, noQuery, List.map_nil]
  rfl

theorem rules_drafted (host : String) (port : UInt32) (allowedIps : List String) :
    (draftedEndpoint host port allowedIps samples).rules =
      (buildL7Rules samples).map fun rule => allowData (protoRuleJson rule) := by
  rw [draftedEndpoint, shownEndpoint, endpointData_shown (protoEndpoint_shows _)]
  unfold proposedEndpoint
  rw [Bool.true_and]
  cases drafted : buildL7Rules samples with
  | nil => rfl
  | cons rule rules => simp

/-- A request is allowed by the rule of a sample. -/
theorem requestAllowed_drafted {engine : OpaEngine} (documented : engine.builtins.Documented) {host : String}
    {port : UInt32} {allowedIps : List String} {request : OpaEngine.RequestData} :
    engine.requestAllowedForEndpoint request (draftedEndpoint host port allowedIps samples) = true ↔
      ∃ sample ∈ samples, engine.methodMatches request.method sample.1 = true ∧
        Glob.Matches '/' false (generalisePath sample.2.toList) request.path.toList := by
  have read : ∀ pattern, engine.pathMatches request.path (String.ofList pattern) = true ↔
      Glob.Matches '/' false pattern request.path.toList := by
    intro pattern
    have globbed := documented.glob (String.ofList pattern) request.path
    rw [String.toList_ofList] at globbed
    unfold OpaEngine.pathMatches
    by_cases all : String.ofList pattern = "**"
    · have stars : pattern = ['*', '*'] := by
        rw [← @String.toList_ofList pattern, all]
        rfl
      have every : Glob.Matches '/' false ['*', '*'] (request.path.toList ++ []) := .stars .done
      rw [List.append_nil] at every
      rw [all, stars]
      exact iff_of_true rfl every
    · simpa [all] using globbed
  unfold OpaEngine.requestAllowedForEndpoint
  rw [rules_drafted, List.any_map, List.any_eq_true]
  constructor
  · intro given
    obtain ⟨rule, member, allowed⟩ := given
    obtain ⟨sample, inside, rfl⟩ := mem_buildL7Rules.mp member
    rw [Function.comp_apply, allowData_allow] at allowed
    simp only [Bool.and_eq_true] at allowed
    exact ⟨sample, inside, allowed.1.1, (read _).mp allowed.1.2⟩
  · intro given
    obtain ⟨sample, inside, method, path⟩ := given
    refine ⟨_, mem_buildL7Rules.mpr ⟨sample, inside, rfl⟩, ?_⟩
    rw [Function.comp_apply, allowData_allow]
    simp only [Bool.and_eq_true]
    exact ⟨⟨method, (read _).mpr path⟩, rfl⟩

/-! Paths and their last segments. -/

theorem generalisePath_single {raw : List Char} (single : '/' ∉ observedPath raw) :
    generalisePath raw = observedPath raw ∧ keptPart raw = observedPath raw := by
  have one := split_whole single
  unfold generalisePath keptPart
  unfold observedPath at one ⊢
  simp only
  rw [one]
  exact ⟨rfl, rfl⟩

theorem generalisePath_segments {raw lead last : List Char} (apart : '/' ∉ last)
    (observed : observedPath raw = lead ++ '/' :: last) :
    (looksLikeId last = true → generalisePath raw = lead ++ ['/', '*'] ∧ keptPart raw = lead) ∧
      (looksLikeId last = false → generalisePath raw = observedPath raw ∧ keptPart raw = observedPath raw) := by
  have pieces : split '/' (observedPath raw) = split '/' lead ++ [last] := by
    rw [observed]
    exact split_behind apart lead
  have many : ¬(split '/' lead ++ [last]).length ≤ 1 := by
    have filled := List.length_pos_iff.mpr (@split_ne_nil '/' lead)
    rw [List.length_append, List.length_singleton]
    omega
  unfold generalisePath keptPart
  unfold observedPath at pieces ⊢
  simp only
  rw [pieces, if_neg many, List.getLast?_concat, List.dropLast_concat, join_split, Option.getD_some,
    decide_eq_true (Nat.lt_of_not_le many), Bool.true_and]
  constructor
  · intro identifier
    rw [if_pos identifier, if_pos identifier]
    exact ⟨rfl, rfl⟩
  · intro other
    rw [other]
    exact ⟨rfl, rfl⟩

theorem differsInId_iff {path lead last : List Char} (apart : '/' ∉ last) :
    DiffersInId path (lead ++ '/' :: last) ↔
      looksLikeId last = true ∧ ∃ other, '/' ∉ other ∧ path = lead ++ '/' :: other := by
  have pieces := split_behind apart lead
  constructor
  · intro differs
    have identifier := differs.identifier
    have others := differs.others
    rw [pieces, List.getLast?_concat] at identifier
    rw [pieces, List.dropLast_concat] at others
    refine ⟨identifier, ?_⟩
    by_cases slash : '/' ∈ path
    · obtain ⟨front, other, whole, rfl⟩ := last_separator slash
      rw [split_behind whole, List.dropLast_concat] at others
      have same : front = lead := by
        rw [← @join_split '/' front, others, join_split]
      exact ⟨other, whole, by rw [same]⟩
    · rw [split_whole slash] at others
      exact absurd others.symm split_ne_nil
  · intro given
    obtain ⟨identifier, other, whole, rfl⟩ := given
    constructor
    · rw [pieces, split_behind whole, List.length_append, List.length_append]
      rfl
    · rw [pieces, split_behind whole, List.dropLast_concat, List.dropLast_concat]
    · rw [pieces, List.getLast?_concat]
      exact identifier

theorem differsInId_single {path observed : List Char} (single : '/' ∉ observed) :
    DiffersInId path observed ↔ looksLikeId observed = true ∧ '/' ∉ path := by
  have one := split_whole single
  constructor
  · intro differs
    have identifier := differs.identifier
    have count := differs.count
    rw [one] at identifier count
    refine ⟨identifier, ?_⟩
    intro slash
    obtain ⟨lead, last, whole, rfl⟩ := last_separator slash
    have filled := List.length_pos_iff.mpr (@split_ne_nil '/' lead)
    rw [split_behind whole, List.length_append] at count
    simp only [List.length_singleton] at count
    omega
  · intro given
    obtain ⟨identifier, whole⟩ := given
    constructor
    · rw [one, split_whole whole]
      rfl
    · rw [one, split_whole whole]
      rfl
    · rw [one]
      exact identifier

theorem segments_iff {lead last text : List Char} (apart : '/' ∉ last) (identifier : looksLikeId last = true) :
    (text = lead ++ '/' :: last ∨ DiffersInId text (lead ++ '/' :: last)) ↔
      ∃ other, '/' ∉ other ∧ text = lead ++ '/' :: other := by
  rw [differsInId_iff apart, and_iff_right identifier]
  constructor
  · intro either
    rcases either with rfl | differs
    · exact ⟨last, apart, rfl⟩
    · exact differs
  · exact .inr

/-- The rule of a path matches the path, and what is like it, exactly if nothing in it has a meaning. -/
theorem path_granted_iff (raw : List Char) :
    (Glob.Matches '/' false (generalisePath raw) (observedPath raw) ∧
      ∀ text, Glob.Matches '/' false (generalisePath raw) text → text = observedPath raw ∨
        DiffersInId text (observedPath raw)) ↔
      Glob.Plain (keptPart raw) ∨ LoneId (observedPath raw) := by
  by_cases slash : '/' ∈ observedPath raw
  · have several : ¬LoneId (observedPath raw) := fun lone => lone.single slash
    obtain ⟨lead, last, apart, observed⟩ := last_separator slash
    obtain ⟨generalised, verbatim⟩ := generalisePath_segments apart observed
    rw [or_iff_left several]
    cases identifier : looksLikeId last with
    | true =>
      obtain ⟨pattern, kept⟩ := generalised identifier
      rw [pattern, kept, observed]
      simp only [segments_iff apart identifier]
      constructor
      · intro given
        obtain ⟨own, alone⟩ := given
        exact Glob.plain_of_segments rfl (by decide) own alone
      · intro plain
        have plainFront : Glob.Plain (lead ++ ['/']) := by
          intro c member
          rcases List.mem_append.mp member with inside | separator
          · exact plain c inside
          · rw [List.mem_singleton.mp separator]
            rfl
        have matched : ∀ {text}, Glob.Matches '/' false (lead ++ ['/', '*']) text ↔
            ∃ other, '/' ∉ other ∧ text = lead ++ '/' :: other := by
          intro text
          rw [show lead ++ ['/', '*'] = lead ++ ['/'] ++ ['*'] by simp, Glob.matches_plain_append plainFront]
          constructor
          · intro given
            obtain ⟨other, rfl, behind⟩ := given
            exact ⟨other, Glob.matches_star.mp behind, by simp⟩
          · intro given
            obtain ⟨other, whole, rfl⟩ := given
            exact ⟨other, by simp, Glob.matches_star.mpr whole⟩
        exact ⟨matched.mpr ⟨last, apart, rfl⟩, fun text => matched.mp⟩
    | false =>
      obtain ⟨pattern, kept⟩ := verbatim identifier
      rw [pattern, kept]
      constructor
      · intro given
        obtain ⟨own, alone⟩ := given
        refine Glob.plain_of_alone own fun text matched => (alone text matched).resolve_right ?_
        rw [observed, differsInId_iff apart, identifier]
        intro given
        obtain ⟨other, _⟩ := given
        cases other
      · intro plain
        exact ⟨(Glob.matches_plain plain).mpr rfl, fun text matched => .inl ((Glob.matches_plain plain).mp matched)⟩
  · obtain ⟨pattern, kept⟩ := generalisePath_single slash
    rw [pattern, kept]
    simp only [differsInId_single slash]
    constructor
    · intro given
      obtain ⟨own, alone⟩ := given
      cases identifier : looksLikeId (observedPath raw) with
      | true =>
        refine .inr ⟨identifier, slash, own, ?_⟩
        intro text matched
        rcases alone text matched with rfl | ⟨_, whole⟩
        · exact slash
        · exact whole
      | false =>
        refine .inl (Glob.plain_of_alone own fun text matched => (alone text matched).resolve_right ?_)
        rw [identifier]
        intro given
        obtain ⟨other, _⟩ := given
        cases other
    · intro either
      rcases either with plain | lone
      · exact ⟨(Glob.matches_plain plain).mpr rfl, fun text matched => .inl ((Glob.matches_plain plain).mp matched)⟩
      · exact ⟨lone.own, fun text matched => .inr ⟨lone.identifier, lone.others text matched⟩⟩

end Rules

/-! What the rules grant. -/

section Grants

variable {engine : OpaEngine} {host : String} {port : UInt32} {allowedIps : List String}

theorem methodMatches_iff {actual expected : String} (other : expected ≠ "*") :
    engine.methodMatches actual expected = true ↔ engine.builtins.upper actual = engine.builtins.upper expected := by
  simp [OpaEngine.methodMatches, other]

theorem grantsObserved_of_stands (documented : engine.builtins.Documented) {samples : List (String × String)}
    (stands : ∀ sample ∈ samples, StandsForItself sample) :
    GrantsObserved engine (draftedEndpoint host port allowedIps samples) samples := by
  constructor
  · intro sample member queryParams
    rw [requestAllowed_drafted documented]
    have own := ((path_granted_iff sample.2.toList).mpr (stands sample member).path).1
    refine ⟨sample, member, (methodMatches_iff (stands sample member).method).mpr rfl, ?_⟩
    rwa [String.toList_ofList]
  · intro request allowed
    obtain ⟨sample, member, method, path⟩ := (requestAllowed_drafted documented).mp allowed
    refine ⟨sample, member, (methodMatches_iff (stands sample member).method).mp method, ?_⟩
    exact ((path_granted_iff sample.2.toList).mpr (stands sample member).path).2 _ path

/-- Of one sample the converse holds as well. -/
theorem stands_of_grantsObserved (documented : engine.builtins.Documented) {sample : String × String}
    (grants : GrantsObserved engine (draftedEndpoint host port allowedIps [sample]) [sample]) : StandsForItself sample := by
  have observed : ∀ method path, engine.methodMatches method sample.1 = true →
      Glob.Matches '/' false (generalisePath sample.2.toList) path →
      Observed engine sample ⟨method, String.ofList path, ∅⟩ := by
    intro method path matched covered
    have allowed : engine.requestAllowedForEndpoint ⟨method, String.ofList path, ∅⟩
        (draftedEndpoint host port allowedIps [sample]) = true := by
      rw [requestAllowed_drafted documented]
      exact ⟨sample, List.mem_singleton.mpr rfl, matched, by rwa [String.toList_ofList]⟩
    obtain ⟨found, member, observed⟩ := grants.only _ allowed
    rwa [List.mem_singleton.mp member] at observed
  have granted := grants.granted sample (List.mem_singleton.mpr rfl) ∅
  rw [requestAllowed_drafted documented] at granted
  obtain ⟨found, member, method, own⟩ := granted
  rw [List.mem_singleton.mp member] at method own
  rw [String.toList_ofList] at own
  constructor
  · intro every
    have any : engine.methodMatches "" sample.1 = true := by
      rw [every]
      rfl
    have star : ∀ c ∈ "*".toList, c.toNat < 128 ∧ c.isAlpha = false := by
      intro c member
      rw [List.mem_singleton.mp member]
      decide
    have same := (observed "" _ any own).1
    rw [every, documented.upper "" (by simp), documented.upper "*" star] at same
    exact absurd same (by decide)
  · rw [← path_granted_iff]
    refine ⟨own, fun text covered => ?_⟩
    have like := (observed sample.1 text method covered).2
    rwa [String.toList_ofList] at like

/-- The rules grant what was observed, whatever of it is drawn, exactly if no sample is read as more than itself. -/
theorem grantsObserved_iff (documented : engine.builtins.Documented) (host : String) (port : UInt32)
    (allowedIps : List String) (samples : List (String × String)) :
    (∀ drawn, drawn ⊆ samples → GrantsObserved engine (draftedEndpoint host port allowedIps drawn) drawn) ↔
      ∀ sample ∈ samples, StandsForItself sample := by
  constructor
  · intro grants sample member
    have alone : [sample] ⊆ samples := by
      intro other inside
      rwa [List.mem_singleton.mp inside]
    exact stands_of_grantsObserved documented (grants [sample] alone)
  · intro stands drawn within
    exact grantsObserved_of_stands documented fun sample member => stands sample (within member)

end Grants

/-- Built-in functions that read globs by their grammar, at the separator that paths are matched with. -/
noncomputable def grammarBuiltins : Builtins where
  lower text := String.ofList (text.toList.map Char.toLower)
  upper text := String.ofList (text.toList.map Char.toUpper)
  globMatch pattern delimiters text :=
    @decide (delimiters = ["/"] ∧ Glob.Matches '/' false pattern.toList text.toList) (Classical.propDecidable _)

theorem toUpper_of_not_alpha {c : Char} (other : c.isAlpha = false) : c.toUpper = c := by
  have noLower : (decide ('a'.val ≤ c.val) && decide (c.val ≤ 'z'.val)) = false := (Bool.or_eq_false_iff.mp other).2
  simp only [Bool.and_eq_false_iff, decide_eq_false_iff_not] at noLower
  have outside : ¬('a'.val ≤ c.val ∧ c.val ≤ 'z'.val) := by
    intro given
    obtain ⟨low, high⟩ := given
    rcases noLower with below | above
    · exact below low
    · exact above high
  unfold Char.toUpper
  rw [dif_neg outside]

theorem grammarBuiltins_documented : grammarBuiltins.Documented where
  glob pattern text := by
    show @decide _ (Classical.propDecidable _) = true ↔ _
    rw [@decide_eq_true_iff _ (Classical.propDecidable _), and_iff_right rfl]
  upper text plain := by
    have same : text.toList.map Char.toUpper = text.toList := by
      rw [List.map_congr_left fun c member => toUpper_of_not_alpha (plain c member).2, List.map_id']
    show String.ofList (text.toList.map Char.toUpper) = text
    rw [same, String.ofList_toList]

theorem noPolicies_sorted : ([] : List (String × PolicyData)).Pairwise fun first second => first.1 < second.1 := .nil

noncomputable def grammarEngine : OpaEngine :=
  ⟨grammarBuiltins, { entries := [], sorted := noPolicies_sorted, none_listed := fun _ => rfl }⟩

def seenRequests : List (String × String) := [("GET", "/v1/models?limit=2"), ("POST", "/v1/users/42")]

theorem seenRequests_granted :
    GrantsObserved grammarEngine (draftedEndpoint "api.example.com" 443 [] seenRequests) seenRequests := by
  have stands : ∀ sample ∈ seenRequests, StandsForItself sample := by
    have plain : (seenRequests.all fun sample => sample.1 != "*" &&
        (keptPart sample.2.toList).all fun c => !Glob.isOperator c) = true := by decide +kernel
    intro sample member
    have both := List.all_eq_true.mp plain sample member
    rw [Bool.and_eq_true, bne_iff_ne, List.all_eq_true] at both
    exact ⟨both.1, .inl fun c inside => by simpa using both.2 c inside⟩
  exact (grantsObserved_iff grammarBuiltins_documented "api.example.com" 443 [] seenRequests).mpr stands _
    (List.Subset.refl _)

/-- Stars in a path that was seen allow every path. -/
theorem stars_seen : ¬∀ engine : OpaEngine, engine.builtins.Documented → ∀ host port allowedIps samples,
    GrantsObserved engine (draftedEndpoint host port allowedIps samples) samples := by
  intro grants
  have granted := grants grammarEngine grammarBuiltins_documented "api.example.com" 443 [] [("GET", "/**")]
  have generalised : generalisePath "/**".toList = "/**".toList := by decide
  have covered : Glob.Matches '/' false "/**".toList ("/admin/users".toList ++ []) := .plain rfl (.stars .done)
  have allowed : grammarEngine.requestAllowedForEndpoint ⟨"GET", "/admin/users", ∅⟩
      (draftedEndpoint "api.example.com" 443 [] [("GET", "/**")]) = true := by
    rw [requestAllowed_drafted grammarBuiltins_documented]
    refine ⟨_, List.mem_singleton.mpr rfl, (methodMatches_iff (by decide)).mpr rfl, ?_⟩
    rw [generalised]
    exact covered
  obtain ⟨sample, member, _, path⟩ := granted.only _ allowed
  rw [List.mem_singleton.mp member] at path
  rcases path with same | differs
  · revert same
    decide
  · have other := differs.identifier
    revert other
    decide

end Mapper

end OpenShell.Sandbox
