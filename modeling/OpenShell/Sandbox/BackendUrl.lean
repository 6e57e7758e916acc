import OpenShell.Lib.Url
import OpenShell.Sandbox.InferenceRouting

namespace OpenShell.Sandbox.Inference

open Text Url

/-! The URL that a routed request is sent to. -/

def buildBackendUrl (endpoint path : List Char) : List Char :=
  let base := endpoint.rdropWhile (· == '/')
  if "/v1".toList.isSuffixOf base && (path == "/v1".toList || "/v1/".toList.isPrefixOf path) then base ++ path.drop 3
  else base ++ path

/-- The endpoint of a route: a URL in its parts. The last part is the query and the fragment, with their marks. -/
structure RouteEndpoint where
  scheme : List Char
  authority : List Char
  path : List Char
  tail : List Char
  known : isHttp scheme = true
  named : authority ≠ []
  plainAuthority : ∀ c ∈ authority, isPlain c = true
  plainPath : ∀ c ∈ path, c = '/' ∨ isPlain c = true
  rooted : ∀ c ∈ path.head?, c = '/'
  marked : ∀ c ∈ tail.head?, endsPath c = true

namespace RouteEndpoint

variable (endpoint : RouteEndpoint)

def front : List Char := endpoint.scheme ++ "://".toList ++ endpoint.authority

def text : List Char := endpoint.front ++ (endpoint.path ++ endpoint.tail)

def trimmedPath : List Char := endpoint.path.rdropWhile (· == '/')

/-- The segments of the base path, without the slashes at its end. -/
def basePath : List (List Char) := (segmentsOf endpoint.trimmedPath).foldl pass []

def carriesV1 : Bool := "/v1".toList.isSuffixOf endpoint.trimmedPath

/-- The authority alone stands where the version is looked for. -/
def isBareV1 : Bool := endpoint.trimmedPath.isEmpty && endpoint.authority == "v1".toList

end RouteEndpoint

def InferenceApiPattern.literalPrefix (pattern : InferenceApiPattern) : List Char :=
  (pattern.pathGlob.dropSuffix? "/*".toList).elim pattern.pathGlob id

def InferenceApiPattern.segments (pattern : InferenceApiPattern) : List (List Char) := segmentsOf pattern.literalPrefix

/-- The base path and the prefix of the pattern, without a version that the endpoint carries. -/
def apiPath (endpoint : RouteEndpoint) (pattern : InferenceApiPattern) : List (List Char) :=
  endpoint.basePath ++ if endpoint.carriesV1 then pattern.segments.tail else pattern.segments

/-- The segments of the request behind the prefix of the pattern. -/
def segmentsBehind (pattern : InferenceApiPattern) (path : List Char) : List (List Char) :=
  segmentsOf (pathPart (path.drop pattern.literalPrefix.length))

/-! The patterns. -/

/-- All are paths under `/v1`, of names that stand for themselves. -/
def InferenceApiPattern.isVersioned (pattern : InferenceApiPattern) : Bool :=
  let names := pattern.segments.tail
  !names.isEmpty && pattern.literalPrefix == spell ("v1".toList :: names) &&
    names.all fun name => name.all isPlain && !isSingleDot name && !isDoubleDot name && !name.isEmpty &&
      name != "v1".toList

theorem isVersioned_default : defaultPatterns.all InferenceApiPattern.isVersioned = true := by decide

structure Versioned (pattern : InferenceApiPattern) (names : List (List Char)) : Prop where
  filled : names ≠ []
  literal : pattern.literalPrefix = spell ("v1".toList :: names)
  still : ∀ name ∈ names, Still name
  other : ∀ name ∈ names, name ≠ [] ∧ name ≠ "v1".toList

theorem versioned_of_default {pattern : InferenceApiPattern} (member : pattern ∈ defaultPatterns) :
    ∃ names, Versioned pattern names := by
  have checked := List.all_eq_true.mp isVersioned_default pattern member
  simp only [InferenceApiPattern.isVersioned, Bool.and_eq_true, beq_iff_eq, Bool.not_eq_true', List.all_eq_true,
    List.isEmpty_eq_false_iff, bne_iff_ne] at checked
  obtain ⟨⟨filled, literal⟩, names⟩ := checked
  refine ⟨_, filled, literal, ?_, ?_⟩
  · intro name inside
    obtain ⟨⟨⟨⟨plain, single⟩, double⟩, _⟩, _⟩ := names name inside
    exact ⟨plain, single, double⟩
  · intro name inside
    exact ⟨(names name inside).1.2, (names name inside).2⟩

theorem Versioned.still_all {pattern : InferenceApiPattern} {names : List (List Char)} (versioned : Versioned pattern names) :
    ∀ name ∈ "v1".toList :: names, Still name := by
  have version : Still "v1".toList := by
    refine ⟨?_, by decide, by decide⟩
    exact List.all_eq_true.mp (by decide)
  intro name member
  rcases List.mem_cons.mp member with rfl | other
  · exact version
  · exact versioned.still name other

theorem Versioned.segments {pattern : InferenceApiPattern} {names : List (List Char)} (versioned : Versioned pattern names) :
    pattern.segments = "v1".toList :: names := by
  rw [InferenceApiPattern.segments, versioned.literal, segmentsOf_spell versioned.still_all]

/-- What the glob covers begins with its literal prefix, which ends there or before a slash. -/
theorem prefix_of_covers {pattern : InferenceApiPattern} {pathOnly : List Char} (covered : pattern.covers pathOnly = true) :
    ∃ rest, pathOnly = pattern.literalPrefix ++ rest ∧ ∀ c ∈ rest.head?, c = '/' := by
  unfold InferenceApiPattern.covers at covered
  unfold InferenceApiPattern.literalPrefix
  cases dropped : pattern.pathGlob.dropSuffix? "/*".toList with
  | none =>
    rw [dropped] at covered
    exact ⟨[], by simpa using covered, by simp⟩
  | some root =>
    rw [dropped] at covered
    simp only [Bool.or_eq_true, beq_iff_eq, Option.any_eq_true] at covered
    rcases covered with same | ⟨suffix, stripped, slash⟩
    · exact ⟨[], by simp [same], by simp⟩
    · refine ⟨suffix, stripPrefix_eq_some.mp stripped, ?_⟩
      intro c first
      rw [Option.mem_def, slash, Option.some.injEq] at first
      exact first.symm

/-- A path that is matched begins with the literal prefix of the pattern, which ends there or at a mark. -/
theorem path_of_detected {method path : List Char} {pattern : InferenceApiPattern}
    (detected : detectInferencePattern method path defaultPatterns = some pattern) :
    pattern ∈ defaultPatterns ∧ ∃ rest, path = pattern.literalPrefix ++ rest ∧ ∀ c ∈ rest.head?, c = '?' ∨ c = '/' := by
  unfold detectInferencePattern at detected
  refine ⟨List.mem_of_find?_eq_some detected, ?_⟩
  have matched := List.find?_some detected
  rw [Bool.and_eq_true, headD_split] at matched
  obtain ⟨rest, front, slash⟩ := prefix_of_covers matched.2
  refine ⟨rest ++ path.dropWhile fun c => c ≠ '?', ?_, ?_⟩
  · rw [← List.append_assoc, ← front]
    exact List.takeWhile_append_dropWhile.symm
  · intro c first
    cases rest with
    | cons d rest => exact .inr (slash c first)
    | nil =>
      left
      rw [List.nil_append] at first
      have stopped := List.head?_dropWhile_not (fun c => decide (c ≠ '?')) path
      rw [Option.mem_def] at first
      rw [first] at stopped
      simpa using stopped

/-! The path of the URL. -/

section Paths

variable {endpoint : RouteEndpoint} {pattern : InferenceApiPattern} {names : List (List Char)}

theorem pathPart_of_mark {c : Char} (ends : endsPath c = true) (rest : List Char) : pathPart (c :: rest) = [] := by
  have apart : isTrimmed c = false ∧ isIgnored c = false := by
    rw [endsPath, Bool.or_eq_true, decide_eq_true_eq, decide_eq_true_eq] at ends
    rcases ends with rfl | rfl
    · decide
    · decide
  have kept : (c :: rest).rdropWhile isTrimmed = c :: rest.rdropWhile isTrimmed :=
    @rdropWhile_append _ isTrimmed [] c apart.1 rest
  rw [pathPart, cleaned, kept, List.filter_cons_of_pos (by simp [apart.2]), List.takeWhile_cons_of_neg (by simp [ends])]

theorem rooted_pathPart {rest : List Char} (marked : ∀ c ∈ rest.head?, c = '?' ∨ c = '/') : Rooted (pathPart rest) := by
  cases rest with
  | nil =>
    intro c first
    cases first
  | cons c rest =>
    rcases marked c rfl with rfl | rfl
    · rw [pathPart_of_mark rfl]
      intro c first
      cases first
    · have clean : Clean ['/'] := by
        intro c member
        rw [List.mem_singleton.mp member]
        decide
      rw [show '/' :: rest = ['/'] ++ rest from rfl, pathPart_append clean (by simp)]
      intro c first
      cases first
      rfl

theorem clean_of_plain {text : List Char} (plain : ∀ c ∈ text, c = '/' ∨ isPlain c = true) : Clean text := by
  intro c member
  rcases plain c member with rfl | stands
  · decide
  · obtain ⟨_, _, ends, trimmed, ignored⟩ := plain_apart stands
    exact ⟨trimmed, ignored, ends⟩

theorem not_slash_of_plain {c : Char} (plain : isPlain c = true) : (c == '/') = false := by
  have separates := (plain_apart plain).2.1
  rw [isSeparator, Bool.or_eq_false_iff, decide_eq_false_iff_not] at separates
  simpa using separates.1

/-- Slashes are trimmed off the path, and no further. -/
theorem rdropWhile_text (untailed : endpoint.tail = []) :
    endpoint.text.rdropWhile (· == '/') = endpoint.front ++ endpoint.trimmedPath := by
  have last := not_slash_of_plain (endpoint.plainAuthority _ (List.getLast_mem endpoint.named))
  unfold RouteEndpoint.text RouteEndpoint.trimmedPath RouteEndpoint.front
  rw [untailed, List.append_nil, ← List.dropLast_concat_getLast endpoint.named]
  simp only [List.append_assoc, List.singleton_append]
  rw [← List.append_assoc, ← List.append_assoc, @rdropWhile_append _ (· == '/') _ _ last]
  simp only [List.append_assoc]

theorem trimmedPath_plain : ∀ c ∈ endpoint.trimmedPath, c = '/' ∨ isPlain c = true := by
  intro c member
  exact endpoint.plainPath c ((List.rdropWhile_prefix _ _).subset member)

theorem trimmedPath_rooted : ∀ c ∈ endpoint.trimmedPath.head?, c = '/' := by
  obtain ⟨slashes, whole⟩ : endpoint.trimmedPath <+: endpoint.path := List.rdropWhile_prefix _ _
  intro c first
  apply endpoint.rooted c
  rw [← whole, List.head?_append, Option.mem_def.mp first]
  rfl

theorem slash_suffix_iff {before piece last : List Char} (pieceWhole : '/' ∉ piece) (lastWhole : '/' ∉ last) :
    '/' :: piece <:+ before ++ '/' :: last ↔ piece = last := by
  constructor
  · intro ends
    obtain ⟨init, same⟩ := ends
    exact (append_cons_unique pieceWhole lastWhole same).2
  · intro same
    subst same
    exact List.suffix_append _ _

/-- The version is found at the end of the path, or in an authority that is nothing else. -/
theorem endsWith_v1_iff : "/v1".toList.isSuffixOf (endpoint.front ++ endpoint.trimmedPath) =
    (endpoint.carriesV1 || endpoint.isBareV1) := by
  have version : '/' ∉ "v1".toList := by decide
  rw [Bool.eq_iff_iff, Bool.or_eq_true, List.isSuffixOf_iff_suffix]
  unfold RouteEndpoint.carriesV1 RouteEndpoint.isBareV1
  rw [List.isSuffixOf_iff_suffix, Bool.and_eq_true, List.isEmpty_iff, beq_iff_eq]
  cases path : endpoint.trimmedPath with
  | nil =>
    have whole : '/' ∉ endpoint.authority := by
      intro member
      have other := not_slash_of_plain (endpoint.plainAuthority _ member)
      revert other
      decide
    have apart : ¬"/v1".toList <:+ [] := by decide
    rw [or_iff_right apart, List.append_nil, and_iff_right rfl, eq_comm]
    have front : endpoint.front = (endpoint.scheme ++ [':', '/']) ++ '/' :: endpoint.authority := by
      unfold RouteEndpoint.front
      simp
    rw [front]
    exact slash_suffix_iff version whole
  | cons c rest =>
    have slash := trimmedPath_rooted c (by rw [path]; rfl)
    subst slash
    have filled : ¬('/' :: rest = [] ∧ endpoint.authority = "v1".toList) := by simp
    obtain ⟨before, last, whole, same⟩ := last_separator (List.mem_cons_self : '/' ∈ '/' :: rest)
    rw [or_iff_left filled, same, ← List.append_assoc]
    exact (slash_suffix_iff version whole).trans (slash_suffix_iff version whole).symm

/-- The segments that are left of a prefix of these, behind the base path. -/
def heldNames (endpoint : RouteEndpoint) (names : List (List Char)) : List (List Char) :=
  if endpoint.carriesV1 || endpoint.isBareV1 then names else "v1".toList :: names

/-- The segments that the code puts in front of those of the request. -/
def heldPath (endpoint : RouteEndpoint) (names : List (List Char)) : List (List Char) :=
  endpoint.basePath ++ heldNames endpoint names

/-- Without a query the parts are put together as they are, the version perhaps left out. -/
theorem buildBackendUrl_untailed (untailed : endpoint.tail = []) (versioned : Versioned pattern names) (rest : List Char) :
    buildBackendUrl endpoint.text (pattern.literalPrefix ++ rest) = endpoint.front ++ (endpoint.trimmedPath ++
      (spell (heldNames endpoint names) ++ rest)) := by
  unfold buildBackendUrl heldNames
  simp only
  rw [rdropWhile_text untailed, endsWith_v1_iff]
  obtain ⟨name, others, rfl⟩ := List.exists_cons_of_ne_nil versioned.filled
  have dropped : (pattern.literalPrefix ++ rest).drop 3 = spell (name :: others) ++ rest := by
    rw [versioned.literal]
    rfl
  have starts : "/v1/".toList.isPrefixOf (pattern.literalPrefix ++ rest) = true := by
    rw [versioned.literal]
    rfl
  rw [starts, dropped, Bool.or_true, Bool.and_true]
  split
  · rw [List.append_assoc]
  · rw [List.append_assoc, versioned.literal]

theorem still_held (versioned : Versioned pattern names) :
    ∀ name ∈ heldNames endpoint names, Still name := by
  unfold heldNames
  split
  · exact versioned.still
  · exact versioned.still_all

theorem held_filled (versioned : Versioned pattern names) :
    heldNames endpoint names ≠ [] := by
  unfold heldNames
  split
  · exact versioned.filled
  · exact List.cons_ne_nil _ _

theorem plain_of_segment {path segment : List Char} (plain : ∀ c ∈ path, c = '/' ∨ isPlain c = true)
    (member : segment ∈ segmentsOf path) : ∀ c ∈ segment, isPlain c = true := by
  intro c inside
  have cut := List.mem_of_mem_tail member
  have within : c ∈ path := mem_of_mem_splitWhen cut inside
  rcases plain c within with rfl | stands
  · cases separates_of_mem_splitWhen cut inside
  · exact stands

theorem mem_foldl_pass {segments path : List (List Char)} {segment : List Char}
    (member : segment ∈ segments.foldl pass path) : segment ∈ path ∨ segment ∈ segments := by
  induction segments generalizing path with
  | nil => exact .inl member
  | cons first segments ih =>
    rcases ih member with before | later
    · rw [Url.pass] at before
      split at before
      · exact .inl (List.dropLast_subset path before)
      · split at before
        · exact .inl before
        · rcases List.mem_append.mp before with old | new
          · exact .inl old
          · exact .inr (List.mem_cons.mpr (.inl (List.mem_singleton.mp new)))
    · exact .inr (List.mem_cons_of_mem _ later)

theorem plain_basePath {segment : List Char} (member : segment ∈ endpoint.basePath) : ∀ c ∈ segment, isPlain c = true := by
  rcases mem_foldl_pass member with inside | inside
  · cases inside
  · exact plain_of_segment trimmedPath_plain inside

/-- The segments of the endpoint are written as they are. -/
theorem map_written {parser : UrlParser} (lawful : parser.Lawful) {segments : List (List Char)}
    (plain : ∀ segment ∈ segments, ∀ c ∈ segment, isPlain c = true) : segments.map parser.written = segments := by
  rw [List.map_congr_left fun segment member => lawful.written_plain segment (plain segment member), List.map_id']

theorem plain_held (versioned : Versioned pattern names) :
    ∀ segment ∈ heldPath endpoint names, ∀ c ∈ segment, isPlain c = true := by
  intro segment member
  rcases List.mem_append.mp member with base | own
  · exact plain_basePath base
  · exact (still_held versioned segment own).plain

/-! What the parser makes of the URL. -/

variable {parser : UrlParser} {rest : List Char}

/-- The segments that are left of the request's own, as they are written. -/
def leftBehind (parser : UrlParser) (segments : List (List Char)) : List (List Char) :=
  ((relative segments).downs ++ ending segments).map parser.written

theorem marks_head {path rest : List Char} (rooted : ∀ c ∈ path.head?, c = '/')
    (marks : ∀ c ∈ rest.head?, (isSeparator c || endsPath c) = true) :
    ∀ c ∈ (path ++ rest).head?, (isSeparator c || endsPath c) = true := by
  cases path with
  | nil => exact marks
  | cons d path =>
    intro c first
    cases first
    rw [rooted d rfl]
    rfl

theorem parse_untailed (lawful : parser.Lawful) (untailed : endpoint.tail = []) (versioned : Versioned pattern names)
    (marked : ∀ c ∈ rest.head?, c = '?' ∨ c = '/') :
    parser.parse (buildBackendUrl endpoint.text (pattern.literalPrefix ++ rest)) =
      (parser.readAuthority (toAsciiLowercase endpoint.scheme) endpoint.authority).map fun read =>
        ⟨toAsciiLowercase endpoint.scheme, read,
          (heldPath endpoint names).take
              ((heldPath endpoint names).length - (relative (segmentsOf (pathPart rest))).ups) ++
            leftBehind parser (segmentsOf (pathPart rest))⟩ := by
  have marks : ∀ c ∈ (spell (heldNames endpoint names) ++ rest).head?, (isSeparator c || endsPath c) = true := by
    obtain ⟨name, others, held⟩ := List.exists_cons_of_ne_nil (@held_filled endpoint pattern names versioned)
    rw [held]
    intro c first
    cases first
    rfl
  have same : ∀ count, ((heldPath endpoint names).take count).map parser.written = (heldPath endpoint names).take count :=
    fun count => map_written lawful fun segment member => plain_held versioned segment (List.mem_of_mem_take member)
  have written : ((relative (segmentsOf (pathPart rest))).behind (heldPath endpoint names) ++
      ending (segmentsOf (pathPart rest))).map parser.written =
        (heldPath endpoint names).take ((heldPath endpoint names).length - (relative (segmentsOf (pathPart rest))).ups) ++
          leftBehind parser (segmentsOf (pathPart rest)) := by
    rw [Relative.behind, List.append_assoc, List.map_append, same]
    rfl
  rw [buildBackendUrl_untailed untailed versioned]
  unfold RouteEndpoint.front
  rw [lawful.parse_http _ _ _ endpoint.known endpoint.named endpoint.plainAuthority (marks_head trimmedPath_rooted marks),
    pathSegments_spelled (clean_of_plain trimmedPath_plain) (still_held versioned) (held_filled versioned)
      (rooted_pathPart marked), ← written]
  rfl

/-- The path ends at a query, and slashes are all that is left behind the base path. -/
theorem pathSegments_tailed {c : Char} (ends : endsPath c = true) (others : List Char) :
    ∃ blanks, pathSegments (endpoint.path ++ c :: others) = endpoint.basePath ++ blanks ∧ ∀ blank ∈ blanks, blank = [] := by
  have part : pathPart (endpoint.path ++ c :: others) = endpoint.path := by
    by_cases empty : endpoint.path = []
    · rw [empty, List.nil_append, pathPart_of_mark ends]
    · rw [pathPart_append (clean_of_plain endpoint.plainPath) empty, pathPart_of_mark ends, List.append_nil]
  by_cases empty : endpoint.path = []
  · refine ⟨[[]], ?_, by simp⟩
    rw [pathSegments, part, empty, RouteEndpoint.basePath, RouteEndpoint.trimmedPath, empty]
    rfl
  · let slashes := endpoint.path.rtakeWhile (· == '/')
    have whole : endpoint.trimmedPath ++ slashes = endpoint.path := List.rdropWhile_append_rtakeWhile
    have only : ∀ c ∈ slashes, c = '/' := by
      intro c member
      simpa using List.mem_rtakeWhile_imp member
    have rooted : Rooted slashes := by
      intro c first
      rw [only c (List.mem_of_mem_head? first)]
      rfl
    have blank : ∀ segment ∈ segmentsOf slashes, segment = [] := by
      intro segment member
      rw [List.eq_nil_iff_forall_not_mem]
      intro c inside
      have cut := List.mem_of_mem_tail member
      rw [only c (mem_of_mem_splitWhen cut inside)] at inside
      cases separates_of_mem_splitWhen cut inside
    have still : ∀ segment ∈ segmentsOf slashes, Still segment := by
      intro segment member
      rw [blank segment member]
      exact ⟨by simp, by decide, by decide⟩
    refine ⟨segmentsOf slashes ++ ending (segmentsOf endpoint.path), ?_, ?_⟩
    · rw [pathSegments, part, if_neg (by simpa using empty), resolve, ← List.append_assoc]
      congr 1
      rw [← whole, segmentsOf_append rooted, List.foldl_append, foldl_pass_still still]
      rfl
    · intro segment member
      rcases List.mem_append.mp member with own | last
      · exact blank segment own
      · unfold ending at last
        split at last
        · exact List.mem_singleton.mp last
        · cases last

/-- A path is put behind the query or the fragment of an endpoint that has one. -/
theorem buildBackendUrl_tailed (tailed : endpoint.tail ≠ []) (path : List Char) :
    ∃ mark others, endsPath mark = true ∧
      buildBackendUrl endpoint.text path = endpoint.front ++ (endpoint.path ++ mark :: others) := by
  obtain ⟨mark, later, tail⟩ := List.exists_cons_of_ne_nil tailed
  have ends : endsPath mark = true := endpoint.marked mark (by rw [tail]; rfl)
  have stays : (mark == '/') = false := by
    rw [beq_eq_false_iff_ne]
    intro same
    subst same
    cases ends
  have trimmed : endpoint.text.rdropWhile (· == '/') =
      endpoint.front ++ (endpoint.path ++ mark :: later.rdropWhile (· == '/')) := by
    unfold RouteEndpoint.text
    rw [tail, ← List.append_assoc, @rdropWhile_append _ (· == '/') _ _ stays, List.append_assoc]
  unfold buildBackendUrl
  simp only
  rw [trimmed]
  split
  · exact ⟨mark, later.rdropWhile (· == '/') ++ path.drop 3, ends, by simp only [List.append_assoc, List.cons_append]⟩
  · exact ⟨mark, later.rdropWhile (· == '/') ++ path, ends, by simp only [List.append_assoc, List.cons_append]⟩

/-- A URL with a query in the middle ends its path there. -/
theorem parse_tailed (lawful : parser.Lawful) (tailed : endpoint.tail ≠ []) (path : List Char) :
    ∃ blanks, (∀ blank ∈ blanks, blank = []) ∧ parser.parse (buildBackendUrl endpoint.text path) =
      (parser.readAuthority (toAsciiLowercase endpoint.scheme) endpoint.authority).map fun read =>
        ⟨toAsciiLowercase endpoint.scheme, read, endpoint.basePath ++ blanks⟩ := by
  obtain ⟨mark, others, ends, built⟩ := buildBackendUrl_tailed tailed path
  have marks : ∀ c ∈ (mark :: others).head?, (isSeparator c || endsPath c) = true := by
    intro c first
    cases first
    rw [ends, Bool.or_true]
  obtain ⟨blanks, resolved, blank⟩ := @pathSegments_tailed endpoint mark ends others
  have plain : ∀ segment ∈ endpoint.basePath ++ blanks, ∀ c ∈ segment, isPlain c = true := by
    intro segment member
    rcases List.mem_append.mp member with base | own
    · exact plain_basePath base
    · simp [blank segment own]
  refine ⟨blanks, blank, ?_⟩
  rw [built, RouteEndpoint.front, lawful.parse_http _ _ _ endpoint.known endpoint.named endpoint.plainAuthority
    (marks_head endpoint.rooted marks), resolved, map_written lawful plain]

/-- Where the URL of a request may lead: to the endpoint, and there under the base path and the prefix. -/
def InApi (parser : UrlParser) (endpoint : RouteEndpoint) (pattern : InferenceApiPattern) (url : List Char) : Prop :=
  ∀ parsed, parser.parse url = some parsed →
    parsed.scheme = toAsciiLowercase endpoint.scheme ∧
    parser.readAuthority (toAsciiLowercase endpoint.scheme) endpoint.authority = some parsed.authority ∧
    apiPath endpoint pattern <+: parsed.path

/-- The endpoint has no query, and what the request climbs over it spells again. Behind an authority that is taken for the
version nothing of the path is there to begin with. -/
structure Restored (parser : UrlParser) (endpoint : RouteEndpoint) (pattern : InferenceApiPattern)
    (segments : List (List Char)) : Prop where
  untailed : endpoint.tail = []
  climbed : endpoint.isBareV1 = true → pattern.segments.length ≤ (relative segments).ups + 1
  spelled : (apiPath endpoint pattern).drop
    (if endpoint.isBareV1 then 0 else (apiPath endpoint pattern).length - (relative segments).ups) <+:
      leftBehind parser segments

theorem prefix_take_append {α : Type} {items others : List α} {count : Nat} :
    items <+: items.take count ++ others ↔ items.drop count <+: others := by
  calc items <+: items.take count ++ others
      ↔ items.take count ++ items.drop count <+: items.take count ++ others := by rw [List.take_append_drop]
    _ ↔ items.drop count <+: others := List.prefix_append_right_inj _

/-- Behind the version in the authority there is no room for another, unless all is climbed over. -/
theorem version_prefix_iff {names others : List (List Char)} {ups : Nat} (filled : names ≠ [])
    (apart : ∀ name ∈ names, name ≠ "v1".toList) :
    "v1".toList :: names <+: names.take (names.length - ups) ++ others ↔
      names.length ≤ ups ∧ "v1".toList :: names <+: others := by
  rcases Nat.lt_or_ge ups names.length with fewer | all
  · obtain ⟨name, rest, rfl⟩ := List.exists_cons_of_ne_nil filled
    have left : (name :: rest).length - ups = (rest.length - ups) + 1 := by
      rw [List.length_cons] at fewer ⊢
      omega
    refine iff_of_false ?_ (fun both => absurd both.1 (Nat.not_le.mpr fewer))
    rw [left, List.take_succ_cons, List.cons_append, List.cons_prefix_cons]
    intro given
    obtain ⟨same, _⟩ := given
    exact apart name List.mem_cons_self same.symm
  · rw [Nat.sub_eq_zero_of_le all, List.take_zero, List.nil_append, and_iff_right all]

theorem apiPath_eq (versioned : Versioned pattern names) : apiPath endpoint pattern =
    endpoint.basePath ++ if endpoint.carriesV1 then names else "v1".toList :: names := by
  rw [apiPath, versioned.segments]
  rfl

/-- What stands behind the base path of the endpoint is never empty. -/
theorem apiPath_behind (versioned : Versioned pattern names) :
    ∃ name others, name ≠ [] ∧ apiPath endpoint pattern = endpoint.basePath ++ name :: others := by
  rw [apiPath_eq versioned]
  split
  · obtain ⟨name, others, rfl⟩ := List.exists_cons_of_ne_nil versioned.filled
    exact ⟨name, others, (versioned.other name List.mem_cons_self).1, rfl⟩
  · exact ⟨_, names, by decide, rfl⟩

theorem bare_parts (bare : endpoint.isBareV1 = true) : endpoint.basePath = [] ∧ endpoint.carriesV1 = false := by
  unfold RouteEndpoint.isBareV1 at bare
  rw [Bool.and_eq_true, List.isEmpty_iff] at bare
  unfold RouteEndpoint.basePath RouteEndpoint.carriesV1
  rw [bare.1]
  exact ⟨rfl, rfl⟩

/-- The path that is held and the one that is expected differ behind a version in the authority alone. -/
theorem apiPath_prefix_iff (versioned : Versioned pattern names) {segments : List (List Char)} :
    apiPath endpoint pattern <+: (heldPath endpoint names).take
        ((heldPath endpoint names).length - (relative segments).ups) ++ leftBehind parser segments ↔
      (endpoint.isBareV1 = true → pattern.segments.length ≤ (relative segments).ups + 1) ∧
      (apiPath endpoint pattern).drop
        (if endpoint.isBareV1 then 0 else (apiPath endpoint pattern).length - (relative segments).ups) <+:
          leftBehind parser segments := by
  by_cases bare : endpoint.isBareV1 = true
  · obtain ⟨noBase, noVersion⟩ := bare_parts bare
    have held : heldPath endpoint names = names := by
      rw [heldPath, heldNames, noBase, noVersion, bare]
      rfl
    have expected : apiPath endpoint pattern = "v1".toList :: names := by
      rw [apiPath_eq versioned, noBase, noVersion]
      rfl
    rw [held, expected, if_pos bare, List.drop_zero, versioned.segments, List.length_cons, Nat.add_le_add_iff_right,
      version_prefix_iff versioned.filled fun name member => (versioned.other name member).2]
    exact and_congr_left fun _ => ⟨fun small _ => small, fun small => small bare⟩
  · have held : heldPath endpoint names = apiPath endpoint pattern := by
      rw [heldPath, heldNames, apiPath_eq versioned, Bool.eq_false_iff.mpr bare, Bool.or_false]
    rw [held, if_neg bare, prefix_take_append]
    exact (and_iff_right fun other => absurd other bare).symm

theorem inApi_iff_of_parse {url : List Char} {segments : List (List Char)}
    (parsed : parser.parse url = (parser.readAuthority (toAsciiLowercase endpoint.scheme) endpoint.authority).map fun read =>
      ⟨toAsciiLowercase endpoint.scheme, read, segments⟩) :
    InApi parser endpoint pattern url ↔
      parser.readAuthority (toAsciiLowercase endpoint.scheme) endpoint.authority = none ∨
        apiPath endpoint pattern <+: segments := by
  unfold InApi
  rw [parsed]
  cases read : parser.readAuthority (toAsciiLowercase endpoint.scheme) endpoint.authority with
  | none => simp
  | some authority => simp

theorem inApi_iff (lawful : parser.Lawful) {method path : List Char}
    (detected : detectInferencePattern method path defaultPatterns = some pattern) (endpoint : RouteEndpoint) :
    InApi parser endpoint pattern (buildBackendUrl endpoint.text path) ↔
      parser.readAuthority (toAsciiLowercase endpoint.scheme) endpoint.authority = none ∨
        Restored parser endpoint pattern (segmentsBehind pattern path) := by
  obtain ⟨shipped, rest, whole, marked⟩ := path_of_detected detected
  obtain ⟨names, versioned⟩ := versioned_of_default shipped
  by_cases untailed : endpoint.tail = []
  · have behind : segmentsBehind pattern path = segmentsOf (pathPart rest) := by
      rw [segmentsBehind, whole, List.drop_left]
    rw [behind, whole, inApi_iff_of_parse (parse_untailed lawful untailed versioned marked), apiPath_prefix_iff versioned]
    exact or_congr_right ⟨fun both => ⟨untailed, both.1, both.2⟩, fun restored => ⟨restored.climbed, restored.spelled⟩⟩
  · obtain ⟨blanks, blank, parsed⟩ := parse_tailed lawful untailed path
    obtain ⟨name, others, filled, expected⟩ := @apiPath_behind endpoint pattern names versioned
    have apart : ¬apiPath endpoint pattern <+: endpoint.basePath ++ blanks := by
      rw [expected, List.prefix_append_right_inj]
      intro begins
      exact filled (blank name (begins.subset List.mem_cons_self))
    rw [inApi_iff_of_parse parsed]
    exact or_congr_right (iff_of_false apart fun restored => untailed restored.untailed)

/-- A matched request stays in its API exactly if what it climbs over is spelled again by what is left of it. -/
theorem request_in_api_iff (lawful : parser.Lawful) {ctx : InferenceContext} (shipped : ctx.patterns = defaultPatterns)
    {request : ParsedHttpRequest}
    (matched : detectInferencePattern request.method (normalizeInferencePath request.path) ctx.patterns = some pattern)
    {call : RouterCall} (routed : call ∈ (routeInferenceRequest ctx request).call) (endpoint : RouteEndpoint) :
    InApi parser endpoint pattern (buildBackendUrl endpoint.text call.path) ↔
      parser.readAuthority (toAsciiLowercase endpoint.scheme) endpoint.authority = none ∨
        Restored parser endpoint pattern (segmentsBehind pattern call.path) := by
  rw [shipped] at matched
  rw [usesPath_normalized.2 call routed]
  exact inApi_iff lawful matched endpoint

end Paths

def exampleEndpoint : RouteEndpoint where
  scheme := "https".toList
  authority := "api.example.com".toList
  path := "/v1".toList
  tail := []
  known := by decide +kernel
  named := by decide
  plainAuthority := List.all_eq_true.mp (by decide +kernel)
  plainPath := by
    have all : ("/v1".toList.all fun c => decide (c = '/') || isPlain c) = true := by decide +kernel
    intro c member
    simpa using List.all_eq_true.mp all c member
  rooted := by
    intro c first
    cases first
    rfl
  marked := by simp

def modelsCall (path : String) : RouterCall := ⟨"model_discovery".toList, "GET".toList, path.toList, [], []⟩

def modelsPattern : InferenceApiPattern := pattern "GET" "/v1/models" "model_discovery" "models_list"

def modelPattern : InferenceApiPattern := pattern "GET" "/v1/models/*" "model_discovery" "models_get"

theorem listed_models : InApi textualParser exampleEndpoint modelsPattern
    (buildBackendUrl exampleEndpoint.text (modelsCall "/v1/models?limit=2").path) :=
  (@request_in_api_iff _ _ textualParser_lawful closedContext rfl (requestFor "/v1/models?limit=2") (by rfl) _ (by rfl)
    exampleEndpoint).mpr (.inr ⟨rfl, by decide +kernel, by decide +kernel⟩)

/-- The dot segments of a request lead out of the API, and the key goes with it. -/
theorem request_climbs_out : ¬∀ parser : UrlParser, parser.Lawful → ∀ ctx request call pattern,
    ctx.patterns = defaultPatterns →
    detectInferencePattern request.method (normalizeInferencePath request.path) ctx.patterns = some pattern →
    call ∈ (routeInferenceRequest ctx request).call → ∀ endpoint,
    InApi parser endpoint pattern (buildBackendUrl endpoint.text call.path) := by
  intro within
  have parsed : readText (buildBackendUrl exampleEndpoint.text "/v1/models/../../admin".toList) =
      some ⟨"https".toList, "api.example.com".toList, ["admin".toList]⟩ := by decide +kernel
  have outside : ¬apiPath exampleEndpoint modelPattern <+: ["admin".toList] := by decide +kernel
  have led := within textualParser textualParser_lawful closedContext (requestFor "/v1/models/../../admin")
    (modelsCall "/v1/models/../../admin") modelPattern rfl (by rfl) (by rfl) exampleEndpoint _ parsed
  exact outside led.2.2

end OpenShell.Sandbox.Inference
