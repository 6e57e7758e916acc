import OpenShell.Sandbox.FailClosed
import OpenShell.Sandbox.Padding
import OpenShell.Sandbox.Relay

namespace OpenShell.Sandbox

open Text Streams Results

/-! The request line that the policy is asked about, beside the one that is sent. -/

def requestLineOf (bytes : List UInt8) : List Char := firstLine (utf8DecodeLossy bytes)

def beforeQuery (target : List Char) : List Char := ((splitOnce '?' target).map Prod.fst).getD target

def isSupportedVersion (version : List Char) : Prop := version = "HTTP/1.1".toList ∨ version = "HTTP/1.0".toList

/-- Three words with one space between each two. -/
def SingleSpaced (line : List Char) : Prop :=
  ∃ method target version, IsWord method ∧ IsWord target ∧ IsWord version ∧
    line = method ++ ' ' :: (target ++ ' ' :: version)

/-! What is accepted. -/

section Accepted

variable {client behind : ByteStream} {request : L7Request} {text : List Char}

theorem getLast_of_bareLf {bytes after : List UInt8} {previous : Option UInt8}
    (clean : hasBareLf previous (bytes ++ 0x0A :: after) = false) : bytes.getLast?.or previous = some 0x0D := by
  induction bytes generalizing previous with
  | nil =>
    rw [List.nil_append, hasBareLf, Bool.or_eq_false_iff] at clean
    simpa using clean.1
  | cons byte bytes ih =>
    rw [List.cons_append, hasBareLf, Bool.or_eq_false_iff] at clean
    have later := ih clean.2
    rw [List.getLast?_cons]
    cases last : bytes.getLast? with
    | none =>
      rw [last] at later
      simpa using later
    | some held =>
      rw [last] at later
      simpa using later

theorem getLast_cr {line : List Char} (last : (utf8Encode line).getLast? = some 0x0D) : ∃ start, line = start ++ ['\r'] := by
  rcases List.eq_nil_or_concat line with empty | ⟨start, c, same⟩
  · rw [empty] at last
    cases last
  · refine ⟨start, ?_⟩
    rw [same, List.concat_eq_append] at last ⊢
    rw [utf8Encode_append, List.getLast?_append_of_ne_nil _ (utf8Encode_cons_ne_nil c [])] at last
    have inside := List.mem_of_getLast? last
    rw [show (0x0D : UInt8) = asciiByte '\r' by decide, (sameAscii_encode [c]).mem_iff (by decide),
      List.mem_singleton] at inside
    rw [inside]

/-- In a text without bare line feeds, the first line is the one up to the first line feed. -/
theorem firstLine_cut (clean : hasBareLf none (utf8Encode text) = false) (ended : '\n' ∈ text) :
    ∃ rest, text = firstLine text ++ (crlfText ++ rest) ∧ '\n' ∉ firstLine text := by
  obtain ⟨before, after, same, whole⟩ := List.eq_append_cons_of_mem ended
  have bytes : utf8Encode text = utf8Encode before ++ 0x0A :: utf8Encode after := by
    rw [same, utf8Encode_append, utf8Encode_cons, encode_ascii (by decide)]
    rfl
  rw [bytes] at clean
  have last := getLast_of_bareLf clean
  rw [Option.or_none] at last
  obtain ⟨line, rfl⟩ := getLast_cr last
  have absent : '\n' ∉ line := fun member => whole (List.mem_append_left _ member)
  have first : firstLine text = line := by
    rw [same, List.append_assoc]
    exact firstLine_whole (fun found => absent (found.subset (by decide))) after
  rw [first]
  exact ⟨after, by rw [same, List.append_assoc]; rfl, absent⟩

/-- The words of an accepted request line, of which the first three are read. -/
structure Accepts (request : L7Request) (method target version : List Char) (more : List (List Char)) : Prop where
  words : splitWhitespace (requestLineOf request.rawHeader) = method :: target :: version :: more
  supported : isSupportedVersion version
  action : request.action = method
  path : request.target = beforeQuery target
  whole : '\n' ∉ requestLineOf request.rawHeader
  ended : headerEnd request.rawHeader = some request.rawHeader.length

theorem parseRequestLine_ok {line method target : List Char} (ran : parseRequestLine line = .ok (method, target)) :
    ∃ version more, splitWhitespace line = method :: target :: version :: more ∧ isSupportedVersion version := by
  unfold parseRequestLine at ran
  split at ran
  · cases ran
  · cases ran
  · cases ran
  · rename_i version more words
    split at ran
    · rename_i supported
      cases ran
      exact ⟨version, more, words, supported⟩
    · cases ran

theorem parseTargetQuery_path {target path : List Char} {params : AList fun _ : String => List String}
    (ran : parseTargetQuery target = .ok (path, params)) : path = beforeQuery target := by
  unfold parseTargetQuery at ran
  unfold beforeQuery
  split at ran
  · rename_i before query found
    obtain ⟨_, _, ran⟩ := ok_of_bind ran
    cases ran
    rw [found]
    rfl
  · rename_i missing
    cases ran
    rw [missing]
    rfl

/-- The line that `lines` gives is the one that `splitCrlf` gives. -/
theorem head_lines (clean : hasBareLf none (utf8Encode text) = false) (ended : '\n' ∈ text) :
    (lines text).head? = some (firstLine text) ∧ '\n' ∉ firstLine text := by
  obtain ⟨rest, same, whole⟩ := firstLine_cut clean ended
  have cut : lines (firstLine text ++ (crlfText ++ rest)) = firstLine text :: lines rest := lines_append whole rest
  rw [← same] at cut
  rw [cut]
  exact ⟨rfl, whole⟩

theorem feed_of_headerEnd {raw : List UInt8} (ended : headerEnd raw = some raw.length) (decoded : utf8Decode raw = some text) :
    '\n' ∈ text := by
  have encoded := utf8Decode_eq_some decoded
  rw [← (sameAscii_encode text).mem_iff (by decide), encoded]
  have crlfs := (@suffix_of_headerEnd raw [] (by simpa using ended)).1
  rw [List.append_nil] at crlfs
  exact crlfs.subset (by decide)

theorem accepts_of_parsed (parsed : parseHttpRequest client = (.ok (some request), behind)) :
    ∃ method target version more, Accepts request method target version more := by
  obtain ⟨_, _, ended⟩ := parseHttpRequest_request parsed
  have accepted := (parseHttpRequest_ok parsed).2
  unfold parseHeaderBlock at accepted
  simp only [ended, Option.getD_some, List.take_length] at accepted
  split at accepted
  · cases accepted
  · rename_i clean
    split at accepted
    · cases accepted
    · rename_i text decoded
      have encoded := utf8Decode_eq_some decoded
      have line : requestLineOf request.rawHeader = firstLine text := by
        rw [requestLineOf, ← encoded, utf8DecodeLossy_encode]
      rw [← encoded, Bool.not_eq_true] at clean
      obtain ⟨first, whole⟩ := head_lines clean (feed_of_headerEnd ended decoded)
      rw [first] at accepted
      obtain ⟨⟨method, target⟩, ranLine, accepted⟩ := ok_of_bind accepted
      obtain ⟨bodyLength, _, accepted⟩ := ok_of_bind accepted
      obtain ⟨⟨path, params⟩, ranQuery, accepted⟩ := ok_of_bind accepted
      obtain ⟨version, more, words, supported⟩ := parseRequestLine_ok ranLine
      have made := Except.ok.inj accepted
      refine ⟨method, target, version, more, by rw [line]; exact words, supported, ?_, ?_, by rw [line]; exact whole,
        ended⟩
      · exact (congrArg L7Request.action made).symm
      · rw [← congrArg L7Request.target made]
        exact parseTargetQuery_path ranQuery

end Accepted

/-! The target with its credentials. -/

/-- The part from the question mark on, and what is sent for it. -/
structure TailResolves (resolver : SecretResolver) (tail sent : List Char) : Prop where
  starts : ∀ c ∈ tail.head?, c = '?'
  sentStarts : ∀ c ∈ sent.head?, c = '?'
  white : ∀ c ∈ sent, isWhitespace c = true → c ∈ tail
  plain : resolver.Named → Plain sent → Plain tail

section Target

variable {resolver : SecretResolver} {uri target path : List Char}

theorem beforeQuery_append {tail : List Char} (absent : '?' ∉ path) (starts : ∀ c ∈ tail.head?, c = '?') :
    beforeQuery (path ++ tail) = path := by
  unfold beforeQuery
  cases tail with
  | nil =>
    rw [List.append_nil, splitOnce_of_notMem absent]
    rfl
  | cons c tail =>
    rw [starts c rfl, splitOnce_append absent]
    rfl

theorem tailResolves_nil : TailResolves resolver [] [] :=
  ⟨by simp, by simp, by simp, fun _ plain => plain⟩

theorem tailResolves_query {query sent : List Char} (resolves : QueryResolves resolver query sent) :
    TailResolves resolver ('?' :: query) ('?' :: sent) where
  starts := by simp
  sentStarts := by simp
  white c member white := by
    rcases List.mem_cons.mp member with here | later
    · rw [here]
      exact List.mem_cons_self ..
    · exact List.mem_cons_of_mem _ (white_of_queryResolves white resolves later)
  plain named plain := by
    have inside := plain_query named resolves fun c member => plain c (List.mem_cons_of_mem _ member)
    intro c member
    rcases List.mem_cons.mp member with here | later
    · rw [here]
      decide
    · exact inside c later

theorem rewriteUri_parts {result : RewriteTargetResult} (ran : rewriteUri resolver uri = .ok result) :
    ∃ path tail sentPath sentTail, uri = path ++ tail ∧ '?' ∉ path ∧ Resolves resolver path sentPath ∧
      TailResolves resolver tail sentTail ∧ result.resolved = sentPath ++ sentTail := by
  unfold rewriteUri at ran
  split at ran
  · rename_i missing
    obtain ⟨rewritten, ranPath, ran⟩ := ok_of_bind ran
    cases ran
    exact ⟨uri, [], _, [], (List.append_nil _).symm, notMem_of_splitOnce missing, ⟨_, ranPath, rfl⟩, tailResolves_nil,
      (List.append_nil _).symm⟩
  · rename_i path query found
    obtain ⟨rewritten, ranPath, ran⟩ := ok_of_bind ran
    obtain ⟨rewrittenQuery, ranQuery, ran⟩ := ok_of_bind ran
    cases ran
    obtain ⟨same, absent⟩ := splitOnce_eq_some found
    exact ⟨path, '?' :: query, _, _, same, absent, ⟨_, ranPath, rfl⟩, tailResolves_query ⟨_, ranQuery, rfl⟩, rfl⟩

theorem resolves_of_eval {result : RewriteTargetResult} (absent : '?' ∉ path)
    (ran : rewriteTargetForEval resolver path = .ok result) : Resolves resolver path result.resolved := by
  unfold rewriteTargetForEval at ran
  cases placeholder : hasPlaceholder path with
  | false =>
    simp only [placeholder, Bool.not_false, if_true] at ran
    split at ran
    · cases ran
    · cases ran
      refine ⟨none, ?_, rfl⟩
      unfold rewriteUriPath
      rw [placeholder]
      rfl
  | true =>
    simp only [placeholder, Bool.not_true, Bool.false_eq_true, if_false] at ran
    unfold rewriteUri at ran
    rw [splitOnce_of_notMem absent] at ran
    obtain ⟨rewritten, ranPath, ran⟩ := ok_of_bind ran
    cases ran
    exact ⟨rewritten, ranPath, rfl⟩

theorem resolves_unique {sent other : List Char} (resolves : Resolves resolver path sent)
    (resolvesToo : Resolves resolver path other) : sent = other := by
  obtain ⟨rewritten, ran, same⟩ := resolves
  obtain ⟨rewrittenToo, ranToo, sameToo⟩ := resolvesToo
  cases ran.symm.trans ranToo
  rw [same, sameToo]

theorem beforeQuery_notMem (target : List Char) : '?' ∉ beforeQuery target := by
  unfold beforeQuery
  cases found : splitOnce '?' target with
  | none => exact notMem_of_splitOnce found
  | some parts => exact (splitOnce_eq_some found).2

/-- The first word of a text and a tail without whitespace: it ends with the tail or lies in the text. -/
theorem first_word_cut {text tail word : List Char} {more : List (List Char)} (plain : Plain tail)
    (words : splitWhitespace (text ++ tail) = word :: more) :
    (∃ lead start, text = lead ++ start ∧ White lead ∧ word = start ++ tail) ∨
      ∃ lead c behind, text = lead ++ (word ++ c :: behind) ∧ White lead ∧
        more = splitWhitespace (c :: behind ++ tail) := by
  obtain ⟨lead, first, behind, same, white, whole, ends, ended⟩ := word_cut text
  cases behind with
  | nil =>
    left
    rw [List.append_nil] at same
    refine ⟨lead, first, same, white, ?_⟩
    have wholeToo : Plain (first ++ tail) := by
      intro c member
      rcases List.mem_append.mp member with inFirst | inTail
      · exact whole c inFirst
      · exact plain c inTail
    have regroup : text ++ tail = lead ++ ((first ++ tail) ++ []) := by
      rw [same]
      simp
    by_cases blank : first ++ tail = []
    · rw [regroup, splitWhitespace_lead white, blank] at words
      cases words
    · rw [regroup, splitWhitespace_cut white ⟨blank, wholeToo⟩ (by simp)] at words
      cases words
      rfl
  | cons c behind =>
    right
    have filled : first ≠ [] := by
      intro empty
      cases ended empty
    have regroup : text ++ tail = lead ++ (first ++ (c :: behind ++ tail)) := by
      rw [same]
      simp
    rw [regroup, splitWhitespace_cut white ⟨filled, whole⟩ (by simpa using ends)] at words
    cases words
    exact ⟨lead, c, behind, same, white, rfl⟩

/-- A version that is the first word behind whitespace in the path lies in the path, with its slash. -/
theorem slash_of_version {behind tail version : List Char} {more : List (List Char)}
    (supported : isSupportedVersion version) (starts : ∀ c ∈ tail.head?, c = '?') (plain : Plain tail)
    (words : splitWhitespace (behind ++ tail) = version :: more) : '/' ∈ behind := by
  have slash : '/' ∈ version := by
    rcases supported with rfl | rfl <;> decide
  have noQuery : '?' ∉ version := by
    rcases supported with rfl | rfl <;> decide
  rcases first_word_cut plain words with ⟨lead, start, same, _, ends⟩ | ⟨lead, c, rest, same, _, _⟩
  · cases tail with
    | nil =>
      rw [List.append_nil] at ends
      rw [same, ← ends]
      exact List.mem_append_right _ slash
    | cons c tail =>
      rw [ends, starts c rfl] at noQuery
      simp at noQuery
  · rw [same]
    simp [slash]

/-- If what is sent for a target has no whitespace and is what its first word is sent as, the target is that word. -/
theorem isWord_uri {sentPath tail sentTail word version last : List Char} {more : List (List Char)}
    (named : resolver.Named) (absent : '?' ∉ path) (resolves : Resolves resolver path sentPath)
    (resolvesTail : TailResolves resolver tail sentTail) (plain : Plain (sentPath ++ sentTail))
    (words : splitWhitespace (path ++ tail) ++ [last] = word :: version :: more)
    (supported : isSupportedVersion version) (evaluated : Resolves resolver (beforeQuery word) sentPath) :
    IsWord (path ++ tail) := by
  have plainTail : Plain tail :=
    resolvesTail.plain named fun c member => plain c (List.mem_append_right _ member)
  cases cut : splitWhitespace (path ++ tail) with
  | nil =>
    rw [cut] at words
    cases words
  | cons first others =>
    have isWord : IsWord first := isWord_of_mem (by rw [cut]; simp)
    rw [cut, List.cons_append, List.cons.injEq] at words
    obtain ⟨rfl, words⟩ := words
    rcases first_word_cut plainTail cut with ⟨lead, start, same, white, ends⟩ | ⟨lead, c, behind, same, white, rest⟩
    · have noQuery : '?' ∉ start := by
        rw [same, List.mem_append, not_or] at absent
        exact absent.2
      rw [ends, beforeQuery_append noQuery resolvesTail.starts] at evaluated
      rw [same, ← List.append_nil start] at resolves
      have longer := resolves_padded white (by simp [White]) evaluated resolves
      have nothing : lead = [] := by
        rw [← List.length_eq_zero_iff]
        omega
      rw [same, nothing, List.nil_append, ← ends]
      exact isWord
    · have noQuery : '?' ∉ first := by
        rw [same, List.mem_append, List.mem_append, not_or, not_or] at absent
        exact absent.2.1
      have path_word := @beforeQuery_append first [] noQuery (by simp)
      rw [List.append_nil] at path_word
      rw [path_word] at evaluated
      -- The word and the whole path have as many slashes, so that none stands behind the word.
      have slashes := count_slash_of_resolves resolves
      rw [count_slash_of_resolves evaluated, same, List.count_append, List.count_append] at slashes
      have noSlash : '/' ∉ c :: behind := by
        rw [← List.count_eq_zero]
        omega
      cases others with
      | nil =>
        have whiteRest := white_of_splitWhitespace rest.symm
        have whiteTrail : White (c :: behind) := fun d member => whiteRest d (List.mem_append_left _ member)
        rw [same] at resolves
        have longer := resolves_padded white whiteTrail evaluated resolves
        rw [List.length_cons] at longer
        omega
      | cons next others =>
        rw [List.cons_append, List.cons.injEq] at words
        rw [words.1] at rest
        exact absurd (slash_of_version supported resolvesTail.starts plainTail rest.symm) noSlash

end Target

/-! The line that is sent. -/

/-- What the policy is asked about, with the credentials in it. -/
def evaluatedTarget (resolver : Option SecretResolver) (target : List Char) :
    Except UnresolvedPlaceholderError (List Char) :=
  match resolver with
  | some resolver => (rewriteTargetForEval resolver target).map (·.resolved)
  | none => .ok target

/-- The line is the evaluated method and target and a version, with a space between each two. -/
def SendsEvaluated (request : L7Request) (evaluated line : List Char) : Prop :=
  ∃ target version, line = request.action ++ ' ' :: (target ++ ' ' :: version) ∧ Plain target ∧
    isSupportedVersion version ∧ beforeQuery target = evaluated

section Sent

variable {base64 : Base64} {resolver : SecretResolver} {request : L7Request} {rewrite : RewriteResult}
  {line method target version evaluated : List Char} {more : List (List Char)}

theorem space_notMem_word {word : List Char} (plain : Plain word) : ' ' ∉ word := by
  intro member
  have here := plain ' ' member
  revert here
  decide

theorem plain_of_supported (supported : isSupportedVersion version) : IsWord version := by
  rcases supported with rfl | rfl
  · exact ⟨by decide, plain_of_all (by decide)⟩
  · exact ⟨by decide, plain_of_all (by decide)⟩

/-- How the request line is sent: as it is, or with the credentials in the part between its first two spaces. -/
inductive SentAs (resolver : SecretResolver) (line : List Char) : List Char → Prop
  | kept (plain : ∀ method uri version, splitn ' ' 3 line = [method, uri, version] → hasPlaceholder uri = false) :
      SentAs resolver line line
  | rewritten {method uri version : List Char} {result : RewriteTargetResult}
      (cut : splitn ' ' 3 line = [method, uri, version]) (placeholder : hasPlaceholder uri = true)
      (ran : rewriteUri resolver uri = .ok result) :
      SentAs resolver line (method ++ ' ' :: (result.resolved ++ ' ' :: version))

theorem sentAs_of_rewritten {result : RewriteLineResult} (ran : rewriteRequestLine resolver line = .ok result) :
    SentAs resolver line result.line := by
  unfold rewriteRequestLine at ran
  split at ran
  · rename_i method uri version cut
    cases placeholder : hasPlaceholder uri with
    | false =>
      simp only [placeholder, Bool.not_false, if_true] at ran
      cases ran
      apply SentAs.kept
      intro _ _ _ cutToo
      cases cut.symm.trans cutToo
      exact placeholder
    | true =>
      simp only [placeholder, Bool.not_true, Bool.false_eq_true, if_false] at ran
      obtain ⟨rewritten, ranUri, ran⟩ := ok_of_bind ran
      cases ran
      have sent := SentAs.rewritten cut placeholder ranUri
      simpa using sent
  · rename_i other
    cases ran
    apply SentAs.kept
    intro method uri version cut
    exact absurd cut (other method uri version)

theorem white_of_rewriteUri {uri : List Char} {result : RewriteTargetResult} {c : Char}
    (ran : rewriteUri resolver uri = .ok result) (white : isWhitespace c = true) (member : c ∈ result.resolved) :
    c ∈ uri := by
  obtain ⟨path, tail, sentPath, sentTail, same, _, resolves, resolvesTail, sent⟩ := rewriteUri_parts ran
  rw [sent, List.mem_append] at member
  rw [same, List.mem_append]
  rcases member with inPath | inTail
  · exact .inl (white_of_resolves white resolves inPath)
  · exact .inr (resolvesTail.white c inTail white)

theorem feed_notMem_sent {sent : List Char} (whole : '\n' ∉ line) (sentAs : SentAs resolver line sent) :
    '\n' ∉ sent := by
  cases sentAs with
  | kept => exact whole
  | rewritten cut placeholder ran =>
    obtain ⟨same, _, _⟩ := splitn_three_iff.mp cut
    intro member
    apply whole
    rw [same]
    simp only [List.mem_append, List.mem_cons] at member ⊢
    rcases member with inMethod | space | inUri | rest
    · exact .inl inMethod
    · exact .inr (.inl space)
    · exact .inr (.inr (.inl (white_of_rewriteUri ran (by decide) inUri)))
    · exact .inr (.inr (.inr rest))

theorem sentAs_of_block (accepts : Accepts request method target version more)
    (ran : rewriteHttpHeaderBlock base64 request.rawHeader (some resolver) = .ok rewrite) :
    SentAs resolver (requestLineOf request.rawHeader) (requestLineOf rewrite.rewritten) := by
  obtain ⟨text, shown, lines, _, rfl⟩ := (rewriteHttpHeaderBlock_ok accepts.ended).mp ran
  unfold rewriteLines at lines
  obtain ⟨rewrittenLine, ranLine, lines⟩ := ok_of_bind lines
  cases lines
  rw [List.take_length] at ranLine
  have sentAs : SentAs resolver (requestLineOf request.rawHeader) rewrittenLine.line := sentAs_of_rewritten ranLine
  have whole : ¬ crlfText <:+: rewrittenLine.line := by
    intro found
    exact feed_notMem_sent accepts.whole sentAs (found.subset (by decide))
  have first : ∀ rest, requestLineOf (utf8Encode (rewrittenLine.line ++ (crlfText ++ rest)) ++
      request.rawHeader.drop request.rawHeader.length) = rewrittenLine.line := by
    intro rest
    unfold requestLineOf
    rw [utf8DecodeLossy_append, List.append_assoc, List.append_assoc]
    exact firstLine_whole whole _
  rw [first]
  exact sentAs

theorem resolves_plain {path : List Char} (plain : hasPlaceholder path = false) : Resolves resolver path path := by
  refine ⟨none, ?_, rfl⟩
  unfold rewriteUriPath
  rw [plain]
  rfl

theorem prefix_of_beforeQuery (target : List Char) : beforeQuery target <+: target := by
  unfold beforeQuery
  cases found : splitOnce '?' target with
  | none => exact List.prefix_refl _
  | some parts =>
    obtain ⟨same, _⟩ := splitOnce_eq_some found
    exact ⟨'?' :: parts.2, same.symm⟩

/-- A request line with single spaces is its three words. -/
theorem line_of_spaced (accepts : Accepts request method target version more)
    (spaced : SingleSpaced (requestLineOf request.rawHeader)) :
    requestLineOf request.rawHeader = method ++ ' ' :: (target ++ ' ' :: version) ∧ IsWord method ∧ IsWord target := by
  obtain ⟨first, second, third, isFirst, isSecond, isThird, same⟩ := spaced
  have words := accepts.words
  rw [same, splitWhitespace_append isFirst, splitWhitespace_append isSecond, splitWhitespace_word isThird] at words
  cases words
  exact ⟨same, isFirst, isSecond⟩

theorem sends_of_sentAs {result : RewriteTargetResult} {sent : List Char}
    (accepts : Accepts request method target version more) (spaced : SingleSpaced (requestLineOf request.rawHeader))
    (ran : rewriteTargetForEval resolver request.target = .ok result)
    (sentAs : SentAs resolver (requestLineOf request.rawHeader) sent) :
    SendsEvaluated request result.resolved sent := by
  obtain ⟨same, isMethod, isTarget⟩ := line_of_spaced accepts spaced
  have cut : splitn ' ' 3 (requestLineOf request.rawHeader) = [method, target, version] :=
    splitn_three_iff.mpr ⟨same, space_notMem_word isMethod.2, space_notMem_word isTarget.2⟩
  rw [accepts.path] at ran
  have evaluated := resolves_of_eval (beforeQuery_notMem target) ran
  cases sentAs with
  | kept plain =>
    have noPlaceholder := plain method target version cut
    have inPath : hasPlaceholder (beforeQuery target) = false := by
      rw [← Bool.not_eq_true, hasPlaceholder_iff] at noPlaceholder ⊢
      intro found
      exact noPlaceholder (found.trans (prefix_of_beforeQuery target).isInfix)
    refine ⟨target, version, by rw [accepts.action]; exact same, isTarget.2, accepts.supported, ?_⟩
    exact resolves_unique (resolves_plain inPath) evaluated
  | @rewritten _ _ _ found cutToo placeholder ranUri =>
    cases cut.symm.trans cutToo
    have plain : Plain found.resolved := by
      intro c member
      cases white : isWhitespace c with
      | false => rfl
      | true =>
        have here := isTarget.2 c (white_of_rewriteUri ranUri white member)
        rw [white] at here
        cases here
    refine ⟨found.resolved, version, by rw [accepts.action], plain, accepts.supported, ?_⟩
    obtain ⟨path, tail, sentPath, sentTail, uri, absent, resolves, resolvesTail, sent⟩ := rewriteUri_parts ranUri
    rw [uri, beforeQuery_append absent resolvesTail.starts] at evaluated
    rw [sent, beforeQuery_append (query_notMem_of_resolves absent resolves) resolvesTail.sentStarts]
    exact resolves_unique resolves evaluated

/-- A line of the evaluated method, a target and a version is the accepted line only with single spaces. -/
theorem spaced_of_sends (accepts : Accepts request method target version more)
    (sends : SendsEvaluated request evaluated (requestLineOf request.rawHeader)) :
    SingleSpaced (requestLineOf request.rawHeader) := by
  obtain ⟨sentTarget, sentVersion, same, plain, supported, _⟩ := sends
  have words := accepts.words
  have isMethod : IsWord method := isWord_of_mem (by rw [words]; simp)
  have isVersion := plain_of_supported supported
  rw [accepts.action] at same
  rw [same, splitWhitespace_append isMethod] at words
  refine ⟨method, sentTarget, sentVersion, isMethod, ⟨?_, plain⟩, isVersion, same⟩
  intro empty
  rw [empty, splitWhitespace_append_cons (by decide), splitWhitespace_word isVersion] at words
  cases words

theorem spaced_of_sentAs {result : RewriteTargetResult} {sent : List Char} (named : resolver.Named)
    (accepts : Accepts request method target version more)
    (ran : rewriteTargetForEval resolver request.target = .ok result)
    (sentAs : SentAs resolver (requestLineOf request.rawHeader) sent)
    (sends : SendsEvaluated request result.resolved sent) : SingleSpaced (requestLineOf request.rawHeader) := by
  generalize same : requestLineOf request.rawHeader = line at sentAs
  cases sentAs with
  | kept =>
    rw [← same] at sends ⊢
    exact spaced_of_sends accepts sends
  | @rewritten first uri last found cut placeholder ranUri =>
    obtain ⟨parts, inFirst, inUri⟩ := splitn_three_iff.mp cut
    obtain ⟨sentTarget, sentVersion, sentParts, plain, supported, shown⟩ := sends
    have isMethod : IsWord method := isWord_of_mem (by rw [accepts.words]; simp)
    have inSent : ' ' ∉ found.resolved := fun member => inUri (white_of_rewriteUri ranUri (by decide) member)
    have inTarget := space_notMem_word plain
    rw [accepts.action] at sentParts
    have cutSent := @splitn_three_iff ' ' _ first found.resolved last |>.mpr ⟨rfl, inFirst, inSent⟩
    rw [splitn_three_iff.mpr ⟨sentParts, space_notMem_word isMethod.2, inTarget⟩] at cutSent
    cases cutSent
    have isVersion := plain_of_supported supported
    have words := accepts.words
    rw [same, parts, splitWhitespace_append isMethod, splitWhitespace_append_cons (by decide),
      splitWhitespace_word isVersion, List.cons.injEq] at words
    obtain ⟨path, tail, sentPath, sentTail, rfl, absent, resolves, resolvesTail, sent⟩ := rewriteUri_parts ranUri
    rw [sent, beforeQuery_append (query_notMem_of_resolves absent resolves) resolvesTail.sentStarts] at shown
    rw [accepts.path] at ran
    have evaluated := resolves_of_eval (beforeQuery_notMem target) ran
    rw [← shown] at evaluated
    rw [sent] at plain
    have isTarget := isWord_uri named absent resolves resolvesTail plain words.2 accepts.supported evaluated
    exact ⟨method, path ++ tail, last, isMethod, isTarget, isVersion, parts⟩

theorem evaluatedTarget_some (ran : evaluatedTarget (some resolver) target = .ok evaluated) :
    ∃ result, rewriteTargetForEval resolver target = .ok result ∧ result.resolved = evaluated := by
  unfold evaluatedTarget at ran
  cases result : rewriteTargetForEval resolver target with
  | error error =>
    simp only [result] at ran
    cases ran
  | ok result =>
    simp only [result] at ran
    cases ran
    exact ⟨_, rfl, rfl⟩

end Sent

/-- The request that is evaluated is the one that is sent exactly if its line is three words with single spaces
    between them. The names of the credentials matter only where the line is not. -/
theorem sendsEvaluated_iff {base64 : Base64} {resolver : Option SecretResolver} {client behind : ByteStream}
    {request : L7Request} {rewrite : RewriteResult} {evaluated : List Char}
    (parsed : parseHttpRequest client = (.ok (some request), behind))
    (ran : rewriteHttpHeaderBlock base64 (requestHeader request) resolver = .ok rewrite)
    (asked : evaluatedTarget resolver request.target = .ok evaluated) :
    (SingleSpaced (requestLineOf request.rawHeader) →
        SendsEvaluated request evaluated (requestLineOf rewrite.rewritten)) ∧
      ((∀ known ∈ resolver, known.Named) → SendsEvaluated request evaluated (requestLineOf rewrite.rewritten) →
        SingleSpaced (requestLineOf request.rawHeader)) := by
  obtain ⟨method, target, version, more, accepts⟩ := accepts_of_parsed parsed
  have header : requestHeader request = request.rawHeader := by
    rw [requestHeader, accepts.ended, Option.getD_some, List.take_length]
  rw [header] at ran
  cases resolver with
  | none =>
    cases ran
    cases asked
    refine ⟨?_, fun _ sends => spaced_of_sends accepts sends⟩
    intro spaced
    obtain ⟨same, _, isTarget⟩ := line_of_spaced accepts spaced
    exact ⟨target, version, by rw [accepts.action]; exact same, isTarget.2, accepts.supported, accepts.path.symm⟩
  | some resolver =>
    have sentAs := sentAs_of_block accepts ran
    obtain ⟨result, ranTarget, rfl⟩ := evaluatedTarget_some asked
    constructor
    · intro spaced
      exact sends_of_sentAs accepts spaced ranTarget sentAs
    · intro named sends
      exact spaced_of_sentAs (named resolver rfl) accepts ranTarget sentAs sends

section Example

/-- The words of the line behind the version are read by nobody, and sent. -/
def longLine : List UInt8 := utf8Encode "GET /a HTTP/1.1 /b\r\n\r\n".toList

def keyLine : List UInt8 := utf8Encode ("GET ".toList ++ keyTarget ++ " HTTP/1.1\r\n\r\n".toList)

def lineClient (line : List UInt8) (filled : line ≠ []) (short : line.length < 2 ^ 64) : ByteStream where
  segments := [line]
  nonempty := by simpa using filled
  bounded := by simpa using short

def longClient : ByteStream := lineClient longLine (by decide +kernel) (by decide +kernel)

def keyClient : ByteStream := lineClient keyLine (by decide +kernel) (by decide +kernel)

theorem length_of_spaced {line : List Char} (spaced : SingleSpaced line) : (splitWhitespace line).length = 3 := by
  obtain ⟨method, target, version, isMethod, isTarget, isVersion, same⟩ := spaced
  rw [same, splitWhitespace_append isMethod, splitWhitespace_append isTarget, splitWhitespace_word isVersion]
  rfl

theorem longClient_sends_more : ∃ request behind rewrite,
    parseHttpRequest longClient = (.ok (some request), behind) ∧
      rewriteHttpHeaderBlock noBase64 (requestHeader request) none = .ok rewrite ∧
      evaluatedTarget none request.target = .ok "/a".toList ∧
      ¬ SendsEvaluated request "/a".toList (requestLineOf rewrite.rewritten) := by
  obtain ⟨behind, parsed⟩ := (@parseHttpRequest_of_block longLine [] longClient (by decide +kernel) (by decide +kernel)
    (by decide +kernel)).1 (by decide +kernel)
  have accepted : parseHttpRequest longClient = (.ok (some ⟨"GET".toList, "/a".toList, ∅, longLine, .none⟩), behind) := by
    rw [parsed]
    rfl
  refine ⟨_, behind, ⟨longLine, none⟩, accepted, rfl, rfl, ?_⟩
  intro sends
  obtain ⟨method, target, version, more, accepts⟩ := accepts_of_parsed accepted
  have words := length_of_spaced (spaced_of_sends accepts sends)
  revert words
  decide +kernel

theorem keyResolver_named : (keyResolver "a".toList).Named := by
  intro entry member
  refine ⟨"KEY".toList, ?_, by decide⟩
  rw [List.mem_singleton.mp member]

/-- The credential is in the line that is sent, as it is in the target that is evaluated. -/
theorem keyClient_sends_evaluated : (keyResolver "a".toList).Named ∧ ∃ request behind rewrite,
    parseHttpRequest keyClient = (.ok (some request), behind) ∧
      rewriteHttpHeaderBlock noBase64 (requestHeader request) (some (keyResolver "a".toList)) = .ok rewrite ∧
      evaluatedTarget (some (keyResolver "a".toList)) request.target = .ok "/bota/send".toList ∧
      SendsEvaluated request "/bota/send".toList (requestLineOf rewrite.rewritten) := by
  obtain ⟨behind, parsed⟩ := (@parseHttpRequest_of_block keyLine [] keyClient (by decide +kernel) (by decide +kernel)
    (by decide +kernel)).1 (by decide +kernel)
  have accepted : parseHttpRequest keyClient = (.ok (some ⟨"GET".toList, keyTarget, ∅, keyLine, .none⟩), behind) := by
    rw [parsed]
    rfl
  have ran : rewriteHttpHeaderBlock noBase64 (requestHeader ⟨"GET".toList, keyTarget, ∅, keyLine, .none⟩)
      (some (keyResolver "a".toList)) = .ok ⟨utf8Encode "GET /bota/send HTTP/1.1\r\n\r\n".toList,
        some "/bot[CREDENTIAL]/send".toList⟩ := by
    rfl
  have asked : evaluatedTarget (some (keyResolver "a".toList)) keyTarget = .ok "/bota/send".toList := by
    rfl
  refine ⟨keyResolver_named, _, behind, _, accepted, ran, asked, (sendsEvaluated_iff accepted ran asked).1 ?_⟩
  refine ⟨"GET".toList, keyTarget, "HTTP/1.1".toList, ?_, ?_, ?_, ?_⟩
  · exact ⟨by decide, plain_of_all (by decide)⟩
  · exact ⟨by decide, plain_of_all (by decide)⟩
  · exact ⟨by decide, plain_of_all (by decide)⟩
  · decide +kernel

end Example

end OpenShell.Sandbox
