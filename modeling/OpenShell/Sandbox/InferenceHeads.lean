import OpenShell.Sandbox.HeaderFields
import OpenShell.Sandbox.Inference

namespace OpenShell.Sandbox.Inference

open Text Results

/-! What the header block of an inference request says. -/

/-- As `headerField`, with white space around the name passed over. -/
def paddedField (line : List Char) : Option (List Char × List Char) :=
  (splitOnce ':' line).map fun parts => (toAsciiLowercase (trim parts.1), trim parts.2)

def fieldOf (line : List Char) : Option (List Char × List Char) :=
  (splitOnce ':' line).map fun parts => (trim parts.1, trim parts.2)

def fieldLines (lines : List (List Char)) : List (List Char) := lines.takeWhile (!·.isEmpty)

/-- The framing that the lines decide; `none` if they are refused. -/
def framing (lines : List (List Char)) : Option BodyLength :=
  framingOf (valuesOf paddedField "transfer-encoding" lines) (valuesOf paddedField "content-length" lines)

namespace Headers

/-- The length that a Content-Length field gave. -/
def length (headers : Headers) : Option Nat := if headers.hasContentLength then some headers.contentLength else none

@[simp] theorem length_getD (headers : Headers) : headers.length.getD headers.contentLength = headers.contentLength := by
  unfold length
  split <;> rfl

@[simp] theorem length_isSome (headers : Headers) : headers.length.isSome = headers.hasContentLength := by
  unfold length
  cases headers.hasContentLength <;> rfl

theorem readContentLength_eq (headers : Headers) (name value : List Char) :
    (headers.readContentLength name value).toOption =
      (agreedLength headers.length (if toAsciiLowercase name = "content-length".toList then [value] else [])).map
        fun length => { headers with contentLength := length.getD headers.contentLength, hasContentLength := length.isSome } := by
  have lower : toAsciiLowercase "content-length".toList = "content-length".toList := by decide
  unfold readContentLength eqIgnoreAsciiCase
  rw [lower]
  by_cases named : toAsciiLowercase name = "content-length".toList
  · rw [decide_eq_true named, if_pos rfl, if_pos named, agreedLength]
    cases parseUnsigned 10 (2 ^ 64) value with
    | none => rfl
    | some newLen =>
      unfold length
      cases known : headers.hasContentLength with
      | false => rfl
      | true =>
        by_cases same : newLen = headers.contentLength
        · simp [same, agreedLength, Except.toOption]
        · simp [same, Ne.symm same, Except.toOption]
  · rw [decide_eq_false named, if_neg Bool.false_ne_true, if_neg named, agreedLength, Option.map_some, length_getD,
      length_isSome]
    rfl

theorem readTransferEncoding_eq (headers : Headers) (name value : List Char) :
    headers.readTransferEncoding name value = { headers with
      isChunked := headers.isChunked || (toAsciiLowercase name = "transfer-encoding".toList && listsChunked value) } := by
  have lower : toAsciiLowercase "transfer-encoding".toList = "transfer-encoding".toList := by decide
  have chunked : toAsciiLowercase "chunked".toList = "chunked".toList := by decide
  unfold readTransferEncoding eqIgnoreAsciiCase listsChunked
  rw [lower, chunked]
  split
  · rename_i both
    rw [both, Bool.or_true]
  · rename_i other
    rw [Bool.eq_false_iff.mpr other, Bool.or_false]

theorem toList_ite {α : Type} (condition : Prop) [Decidable condition] (value : α) :
    (if condition then some value else none).toList = if condition then [value] else [] := by
  split <;> rfl

theorem any_ite {α : Type} (condition : Prop) [Decidable condition] (value : α) (holds : α → Bool) :
    (if condition then some value else none).any holds = (decide condition && holds value) := by
  by_cases here : condition
  · rw [if_pos here, decide_eq_true here]
    rfl
  · rw [if_neg here, decide_eq_false here]
    rfl

theorem readLine_eq (headers : Headers) (line : List Char) : (headers.readLine line).toOption =
    (agreedLength headers.length (valueOf paddedField "content-length" line).toList).map fun length =>
      ⟨headers.headers ++ (fieldOf line).toList, length.getD headers.contentLength, length.isSome,
        headers.isChunked || (valueOf paddedField "transfer-encoding" line).any listsChunked⟩ := by
  unfold readLine valueOf paddedField fieldOf
  cases splitOnce ':' line with
  | none =>
    simp only [Option.map_none, Option.bind_none, Option.toList_none, agreedLength, Option.map_some, List.append_nil,
      Option.any_none, Bool.or_false, length_getD, length_isSome]
    rfl
  | some parts =>
    obtain ⟨name, value⟩ := parts
    simp only [Option.map_some, Option.bind_some, Option.toList_some, toOption_bind, readContentLength_eq,
      Option.bind_map, readTransferEncoding_eq, toList_ite, any_ite]
    cases agreedLength headers.length
      (if toAsciiLowercase (trim name) = "content-length".toList then [trim value] else []) <;> rfl

theorem foldlM_readLine (lines : List (List Char)) (headers : Headers) : (lines.foldlM readLine headers).toOption =
    (agreedLength headers.length (valuesOf paddedField "content-length" lines)).map fun length =>
      ⟨headers.headers ++ lines.filterMap fieldOf, length.getD headers.contentLength, length.isSome,
        headers.isChunked || (valuesOf paddedField "transfer-encoding" lines).any listsChunked⟩ := by
  induction lines generalizing headers with
  | nil =>
    simp only [valuesOf, List.filterMap_nil, agreedLength, Option.map_some, List.append_nil, length_getD, length_isSome,
      List.any_nil, Bool.or_false, List.foldlM_nil]
    rfl
  | cons line lines ih =>
    rw [List.foldlM_cons, toOption_bind, readLine_eq, Option.bind_map, valuesOf_cons, valuesOf_cons, agreedLength_append,
      Option.map_bind]
    congr 1
    funext held
    have carried : length ⟨headers.headers ++ (fieldOf line).toList, held.getD headers.contentLength, held.isSome,
        headers.isChunked || (valueOf paddedField "transfer-encoding" line).any listsChunked⟩ = held := by
      unfold length
      cases held <;> rfl
    rw [Function.comp_apply, ih, carried, any_toList_append, ← Bool.or_assoc]
    apply Option.map_congr
    intro agreed found
    have same : agreed.getD (held.getD headers.contentLength) = agreed.getD headers.contentLength := by
      cases agreed with
      | some length => rfl
      | none => rw [(agreedLength_eq_none_iff.mp found).1]; rfl
    rw [same, filterMap_cons_toList, List.append_assoc]

end Headers

theorem readHeaders_eq (lines : List (List Char)) : (readHeaders lines).toOption =
    (agreedLength none (valuesOf paddedField "content-length" (fieldLines lines))).map fun length =>
      ⟨(fieldLines lines).filterMap fieldOf, length.getD 0, length.isSome,
        (valuesOf paddedField "transfer-encoding" (fieldLines lines)).any listsChunked⟩ :=
  Headers.foldlM_readLine (fieldLines lines) {}

/-- A readable header block that is not refused. -/
structure Head where
  method : List Char
  path : List Char
  headers : List (List Char × List Char)
  framing : BodyLength
deriving DecidableEq

def Head.request (head : Head) (body : List UInt8) : ParsedHttpRequest := ⟨head.method, head.path, head.headers, body⟩

/-- Method and path, and the lines behind them. -/
def requestParts (headerBytes : List UInt8) : Option (List Char × List Char × List (List Char)) :=
  (utf8Decode headerBytes).bind fun headerStr =>
    match splitCrlf headerStr with
    | [] => none
    | requestLine :: lines =>
      match splitWhitespace requestLine with
      | method :: path :: _ => some (method, path, fieldLines lines)
      | _ => none

/-- What a header block says, if it is readable; inside that `none`, if its lengths are refused. -/
def headOf (headerBytes : List UInt8) : Option (Option Head) :=
  (requestParts headerBytes).map fun parts =>
    (framing parts.2.2).map (⟨parts.1, parts.2.1, parts.2.2.filterMap fieldOf, ·⟩)

theorem requestParts_eq_some {headerBytes : List UInt8} {parts : List Char × List Char × List (List Char)}
    (readable : requestParts headerBytes = some parts) :
    ∃ headerStr requestLine lines more, utf8Decode headerBytes = some headerStr ∧
      splitCrlf headerStr = requestLine :: lines ∧ splitWhitespace requestLine = parts.1 :: parts.2.1 :: more ∧
      parts.2.2 = fieldLines lines := by
  obtain ⟨headerStr, decoded, readable⟩ := Option.bind_eq_some_iff.mp readable
  split at readable
  · cases readable
  · rename_i requestLine lines cut
    split at readable
    · rename_i words
      cases readable
      exact ⟨headerStr, requestLine, lines, _, decoded, cut, words, rfl⟩
    · cases readable

def Head.length (head : Head) : Nat :=
  match head.framing with
  | .contentLength length => length
  | _ => 0

section Parse

variable {overflowChecks : Bool} {buf : List UInt8} {headerEnd : Nat} {head : Head}

theorem add_headerEnd (bounded : buf.length ≤ maxSlice) (found : position (crlf ++ crlf) buf = some headerEnd) :
    headerEnd + 4 ≤ buf.length ∧ add overflowChecks headerEnd 4 = .ok (headerEnd + 4) ∧
      slice buf 0 headerEnd = .ok (buf.take headerEnd) := by
  have reached : headerEnd + 4 ≤ buf.length := position_reaches found
  unfold maxSlice at bounded
  refine ⟨reached, if_pos (by omega), ?_⟩
  rw [slice, if_pos ⟨Nat.zero_le _, by omega⟩, List.drop_zero]

theorem tryParse_open (missing : position (crlf ++ crlf) buf = none) :
    tryParseHttpRequest overflowChecks buf = .ok .incomplete := by
  rw [tryParseHttpRequest, missing]
  rfl

theorem tryParse_unreadable (bounded : buf.length ≤ maxSlice) (found : position (crlf ++ crlf) buf = some headerEnd)
    (unreadable : headOf (buf.take headerEnd) = none) : tryParseHttpRequest overflowChecks buf = .ok .incomplete := by
  obtain ⟨_, start, header⟩ := @add_headerEnd overflowChecks buf headerEnd bounded found
  rw [headOf, Option.map_eq_none_iff, requestParts] at unreadable
  rw [tryParseHttpRequest, found]
  simp only [header, bind, Except.bind]
  cases decoded : utf8Decode (buf.take headerEnd) with
  | none => rfl
  | some headerStr =>
    rw [decoded, Option.bind_some] at unreadable
    simp only [parseHead, start, bind, Except.bind]
    split
    · rfl
    · rename_i requestLine lines split_lines
      rw [split_lines] at unreadable
      simp only at unreadable ⊢
      split
      · rename_i words
        rw [words] at unreadable
        cases unreadable
      · rfl

/-- A readable header block leads on to its fields. -/
theorem tryParse_readable (bounded : buf.length ≤ maxSlice) (found : position (crlf ++ crlf) buf = some headerEnd)
    {method path : List Char} {fields : List (List Char)}
    (readable : requestParts (buf.take headerEnd) = some (method, path, fields)) :
    ∃ lines, fields = fieldLines lines ∧
      (∀ reason, readHeaders lines = .error reason → tryParseHttpRequest overflowChecks buf = .ok (.invalid reason)) ∧
      ∀ headers, readHeaders lines = .ok headers → tryParseHttpRequest overflowChecks buf =
        parseBody overflowChecks buf (⟨method, path, headers.headers, ·⟩) headers (headerEnd + 4) := by
  obtain ⟨_, start, header⟩ := @add_headerEnd overflowChecks buf headerEnd bounded found
  obtain ⟨headerStr, requestLine, lines, more, decoded, cut, words, same⟩ := requestParts_eq_some readable
  rw [tryParseHttpRequest, found]
  simp only [header, bind, Except.bind, decoded, parseHead, start, cut, words]
  refine ⟨lines, same, fun reason refused => ?_, fun headers accepted => ?_⟩
  · rw [refused]
    rfl
  · rw [accepted]

theorem tryParse_refused (bounded : buf.length ≤ maxSlice) (found : position (crlf ++ crlf) buf = some headerEnd)
    (refused : headOf (buf.take headerEnd) = some none) :
    ∃ reason, tryParseHttpRequest overflowChecks buf = .ok (.invalid reason) := by
  obtain ⟨⟨method, path, fields⟩, readable, refused⟩ := Option.map_eq_some_iff.mp refused
  obtain ⟨lines, rfl, invalid, valid⟩ := @tryParse_readable overflowChecks buf headerEnd bounded found _ _ _ readable
  have read := readHeaders_eq lines
  rw [Option.map_eq_none_iff, framing, framingOf, Option.bind_eq_none_iff] at refused
  cases accepted : readHeaders lines with
  | error reason => exact ⟨reason, invalid reason accepted⟩
  | ok headers =>
    rw [accepted, eq_comm, Except.toOption, Option.map_eq_some_iff] at read
    obtain ⟨length, agreed, rfl⟩ := read
    have ambiguous := refused length agreed
    unfold bodyLengthOf at ambiguous
    split at ambiguous
    · rename_i chunked
      refine ⟨"Request contains both Transfer-Encoding and Content-Length headers", ?_⟩
      rw [valid _ accepted, parseBody, if_pos]
      · rfl
      · rw [chunked]
        rfl
    · cases ambiguous
    · cases ambiguous
    · cases ambiguous

/-- The header block says how the body is parsed. -/
theorem tryParse_accepted (bounded : buf.length ≤ maxSlice) (found : position (crlf ++ crlf) buf = some headerEnd)
    (accepted : headOf (buf.take headerEnd) = some (some head)) :
    ∃ headers, tryParseHttpRequest overflowChecks buf = parseBody overflowChecks buf head.request headers (headerEnd + 4) ∧
      (headers.isChunked && headers.hasContentLength) = false ∧ headers.contentLength = head.length ∧
      (headers.isChunked = true ↔ head.framing = .chunked) := by
  obtain ⟨⟨method, path, fields⟩, readable, accepted⟩ := Option.map_eq_some_iff.mp accepted
  obtain ⟨lines, rfl, _, valid⟩ := @tryParse_readable overflowChecks buf headerEnd bounded found _ _ _ readable
  obtain ⟨decided, framed, rfl⟩ := Option.map_eq_some_iff.mp accepted
  obtain ⟨length, agreed, framed⟩ := Option.bind_eq_some_iff.mp framed
  have read := readHeaders_eq lines
  rw [agreed, Option.map_some] at read
  cases read_ok : readHeaders lines with
  | error reason =>
    rw [read_ok] at read
    cases read
  | ok headers =>
    rw [read_ok, Except.toOption, Option.some.injEq] at read
    refine ⟨headers, by rw [valid headers read_ok, read]; rfl, ?_⟩
    unfold bodyLengthOf at framed
    rw [read]
    split at framed
    · cases framed
    · rename_i chunked
      cases framed
      exact ⟨Bool.and_false _, rfl, iff_of_true chunked rfl⟩
    · rename_i chunked
      cases framed
      rw [chunked]
      exact ⟨rfl, rfl, iff_of_false Bool.false_ne_true (by rintro ⟨⟩)⟩
    · rename_i chunked
      cases framed
      rw [chunked]
      exact ⟨rfl, rfl, iff_of_false Bool.false_ne_true (by rintro ⟨⟩)⟩

end Parse

end OpenShell.Sandbox.Inference
