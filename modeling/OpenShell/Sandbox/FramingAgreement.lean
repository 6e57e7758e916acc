import OpenShell.Sandbox.InferenceRequests
import OpenShell.Sandbox.RequestLine

namespace OpenShell.Sandbox

open Text Streams Results

/-! The framing of one header block as the REST parser and as the parser of inference requests decide it. -/

section Lines

variable {text : List Char}

theorem hasBareLf_behind {before after : List UInt8} {previous : Option UInt8}
    (clean : hasBareLf previous (before ++ 0x0A :: after) = false) : hasBareLf (some 0x0A) after = false := by
  induction before generalizing previous with
  | nil =>
    rw [List.nil_append, hasBareLf, Bool.or_eq_false_iff] at clean
    exact clean.2
  | cons byte before ih =>
    rw [List.cons_append, hasBareLf, Bool.or_eq_false_iff] at clean
    exact ih clean.2

theorem feed_notMem_line {previous : Option UInt8} (other : previous ≠ some 0x0D)
    (clean : hasBareLf previous (utf8Encode text) = false) : ∀ line ∈ splitCrlf text, '\n' ∉ line := by
  generalize cut : splitCrlf text = pieces
  induction pieces generalizing text previous with
  | nil => exact absurd cut (splitCrlf_ne_nil text)
  | cons first more ih =>
    have whole := crlf_notInfix_line (show first ∈ splitCrlf text by rw [cut]; exact List.mem_cons_self)
    have starts : ∃ behind, text = first ++ behind := by
      rcases splitCrlf_eq_cons cut with ⟨_, rfl⟩ | ⟨rest, rfl, _⟩
      · exact ⟨[], (List.append_nil _).symm⟩
      · exact ⟨_, rfl⟩
    have absent : '\n' ∉ first := by
      intro member
      obtain ⟨before, after, rfl, _⟩ := List.eq_append_cons_of_mem member
      obtain ⟨behind, rfl⟩ := starts
      have bytes : utf8Encode (before ++ '\n' :: after ++ behind) =
          utf8Encode before ++ 0x0A :: utf8Encode (after ++ behind) := by
        rw [List.append_assoc, List.cons_append, utf8Encode_append, utf8Encode_cons, encode_ascii (by decide)]
        rfl
      rw [bytes] at clean
      have last := getLast_of_bareLf clean
      cases ends : (utf8Encode before).getLast? with
      | none =>
        rw [ends, Option.none_or] at last
        exact other last
      | some byte =>
        rw [ends, Option.some_or] at last
        obtain ⟨start, rfl⟩ := getLast_cr (ends.trans last)
        exact whole ⟨start, after, by simp [crlfText]⟩
    intro line member
    rcases List.mem_cons.mp member with rfl | later
    · exact absent
    · rcases splitCrlf_eq_cons cut with ⟨rfl, _⟩ | ⟨rest, rfl, behind⟩
      · cases later
      · have bytes : utf8Encode (first ++ (crlfText ++ rest)) = (utf8Encode first ++ [0x0D]) ++ 0x0A :: utf8Encode rest := by
          simp only [crlfText, List.cons_append, List.nil_append, utf8Encode_append, utf8Encode_cons]
          rw [encode_ascii (by decide), encode_ascii (by decide)]
          simp
        rw [bytes] at clean
        exact ih (by decide) (hasBareLf_behind clean) behind line later

end Lines

/-! Header blocks that both parsers read. -/

/-- The REST parser gets to the fields of the block. -/
structure RestReads (buf : List UInt8) (headers : List Char) : Prop where
  clean : hasBareLf none buf = false
  decoded : utf8Decode buf = some headers
  accepted : ∃ requestLine parts, (lines headers).head? = some requestLine ∧ parseRequestLine requestLine = .ok parts

/-- The parser of inference requests gets to the fields of the block. -/
structure InferenceReads (buf : List UInt8) (fields : List (List Char)) : Prop where
  accepted : ∃ blockEnd headerStr requestLine method path more, position (crlf ++ crlf) buf = some blockEnd ∧
    utf8Decode (buf.take blockEnd) = some headerStr ∧ splitCrlf headerStr = requestLine :: fields ∧
    splitWhitespace requestLine = method :: path :: more

/-- The framing of the body for which the parser of inference requests goes on. -/
def Inference.Headers.bodyLength (headers : Inference.Headers) : Option BodyLength :=
  if headers.isChunked && headers.hasContentLength then none
  else if headers.isChunked then some .chunked
  else if headers.hasContentLength then some (.contentLength headers.contentLength)
  else some .none

def Inference.bodyLength (fields : List (List Char)) : Option BodyLength :=
  (Inference.readHeaders fields).toOption.bind Inference.Headers.bodyLength

theorem inference_bodyLength (fields : List (List Char)) :
    Inference.bodyLength fields = Inference.framing (Inference.fieldLines fields) := by
  unfold Inference.bodyLength Inference.framing framingOf
  rw [Inference.readHeaders_eq, Option.bind_map]
  congr 1
  funext length
  unfold Inference.Headers.bodyLength bodyLengthOf
  simp only [Function.comp_apply]
  cases (valuesOf Inference.paddedField "transfer-encoding" (Inference.fieldLines fields)).any listsChunked <;>
    cases length <;> rfl

section Blocks

variable {buf : List UInt8} {headers : List Char} {fields : List (List Char)}

/-- The parser of inference requests parses the body by that framing, or refuses the request. -/
theorem headerBlock_of_reads (reads : InferenceReads buf fields) :
    ∃ blockEnd head, Inference.HeaderBlock buf blockEnd head ∧
      head.map Inference.Head.framing = Inference.bodyLength fields := by
  obtain ⟨blockEnd, headerStr, requestLine, method, path, more, found, decoded, cut, words⟩ := reads.accepted
  have parts : Inference.requestParts (buf.take blockEnd) = some (method, path, Inference.fieldLines fields) := by
    rw [Inference.requestParts, decoded, Option.bind_some, cut]
    simp only [words]
  refine ⟨blockEnd, _, ⟨found, by rw [Inference.headOf, parts]; rfl⟩, ?_⟩
  rw [Option.map_map, inference_bodyLength]
  exact Option.map_id'

/-- A block that is refused for its lengths is refused; one that is accepted has the framing that was read. -/
theorem parseHeaderBlock_of_reads (ended : headerEnd buf = some buf.length) (reads : RestReads buf headers) :
    (∀ error, parseBodyLength headers = .error error → parseHeaderBlock buf = .error error) ∧
      ∀ request, parseHeaderBlock buf = .ok request → parseBodyLength headers = .ok request.bodyLength := by
  obtain ⟨requestLine, ⟨method, target⟩, first, parsed⟩ := reads.accepted
  unfold parseHeaderBlock
  simp only [ended, Option.getD_some, List.take_length, reads.clean, reads.decoded, first, parsed]
  constructor
  · intro error refused
    rw [refused]
    rfl
  · intro request accepted
    obtain ⟨_, _, accepted⟩ := ok_of_bind accepted
    obtain ⟨bodyLength, read, accepted⟩ := ok_of_bind accepted
    obtain ⟨_, _, accepted⟩ := ok_of_bind accepted
    rw [read, ← Except.ok.inj accepted]

/-- The text of a block that ends with its blank line. -/
theorem text_of_block {blockEnd : Nat} {headerStr : List Char} (ended : headerEnd buf = some buf.length)
    (found : position (crlf ++ crlf) buf = some blockEnd) (decoded : utf8Decode (buf.take blockEnd) = some headerStr) :
    buf = utf8Encode (headerStr ++ (crlfText ++ crlfText)) := by
  have length : blockEnd + 4 = buf.length := by
    rw [headerEnd, found, Option.map_some, Option.some.injEq] at ended
    exact ended
  obtain ⟨before, after, whole, _, rfl, behind⟩ := position_cut found
  have size : (crlf ++ crlf).length = 4 := rfl
  rw [size, List.drop_of_length_le (by omega)] at behind
  rw [utf8Encode_append, utf8Decode_eq_some decoded, show utf8Encode (crlfText ++ crlfText) = crlf ++ crlf from rfl]
  rw [← behind, List.append_nil] at whole
  exact whole

/-- No line behind the first is empty before the blank line. -/
theorem blank_notMem_block {blockEnd : Nat} {headerStr : List Char} (ended : headerEnd buf = some buf.length)
    (found : position (crlf ++ crlf) buf = some blockEnd) (decoded : utf8Decode (buf.take blockEnd) = some headerStr) :
    [] ∉ (splitCrlf headerStr).tail := by
  intro blank
  obtain ⟨before, after, same⟩ := blank_iff.mpr blank
  have whole := text_of_block ended found decoded
  rw [← List.append_assoc, ← same] at whole
  simp only [utf8Encode_append, List.append_assoc] at whole
  have four : utf8Encode crlfText ++ utf8Encode crlfText = crlf ++ crlf := rfl
  have length := congrArg (fun text => (utf8Encode text).length) same
  simp only [utf8Encode_append, List.length_append, utf8Decode_eq_some decoded] at length
  have two : (utf8Encode crlfText).length = 2 := rfl
  have short := List.length_take_le blockEnd buf
  obtain ⟨_, first⟩ := position_eq_some_iff.mp found
  refine first (utf8Encode before).length (by omega) ?_
  rw [whole, List.drop_left, ← List.append_assoc, four]
  exact List.prefix_append _ _

theorem headerLines_of_block (ended : headerEnd buf = some buf.length) (reads : RestReads buf headers)
    (readsToo : InferenceReads buf fields) : headerLines headers = fields ++ [[]] ∧ Inference.fieldLines fields = fields := by
  obtain ⟨blockEnd, headerStr, requestLine, _, _, _, found, decoded, cut, _⟩ := readsToo.accepted
  have whole := text_of_block ended found decoded
  have text : headers = headerStr ++ crlfText ++ crlfText := by
    have same := reads.decoded
    rw [whole, utf8Decode_encode, Option.some.injEq] at same
    rw [← same, List.append_assoc]
  have cutToo : splitCrlf (headerStr ++ crlfText) = requestLine :: (fields ++ [[]]) := by
    rw [← List.append_nil crlfText, splitCrlf_append, cut]
    rfl
  have clean : ∀ line ∈ splitCrlf (headerStr ++ crlfText), '\n' ∉ line := by
    intro line member
    have noFeed : hasBareLf none (utf8Encode (headerStr ++ (crlfText ++ crlfText))) = false := whole ▸ reads.clean
    apply feed_notMem_line (by decide) noFeed line
    have two : splitCrlf crlfText = [[], []] := by decide
    rw [cutToo] at member
    rw [splitCrlf_append, cut, two]
    simp only [List.cons_append, List.mem_cons, List.mem_append] at member ⊢
    tauto
  have blank : [] ∉ fields := by
    have absent := blank_notMem_block ended found decoded
    rw [cut] at absent
    exact absent
  constructor
  · rw [headerLines, text, lines_eq_splitCrlf clean, cutToo]
    rfl
  · rw [Inference.fieldLines, List.takeWhile_eq_self_iff]
    intro line member
    cases line with
    | nil => exact absurd member blank
    | cons => rfl

end Blocks

/-! Fields whose names are padded with white space count for one parser only. -/

section Values

variable {codings lengths allCodings allLengths : List (List Char)}

/-- The values are refused: with a length beside a chunked coding, or with lengths that are not all the same number. -/
def Refused (codings lengths : List (List Char)) : Prop :=
  lengths ≠ [] ∧ ((∃ coding ∈ codings, listsChunked coding = true) ∨
    ¬ ∃ length, ∀ value ∈ lengths, parseUnsigned 10 (2 ^ 64) value = some length)

theorem framingOf_nil (codings : List (List Char)) :
    framingOf codings [] = some (if codings.any listsChunked then .chunked else .none) := by
  unfold framingOf bodyLengthOf agreedLength
  cases codings.any listsChunked <;> rfl

theorem refused_iff : framingOf codings lengths = none ↔ Refused codings lengths := by
  unfold Refused
  by_cases empty : lengths = []
  · rw [empty, framingOf_nil]
    exact iff_of_false (Option.some_ne_none _) fun refused => refused.1 rfl
  · rw [framingOf_eq_none_iff empty]
    exact (and_iff_right empty).symm

theorem framingOf_cases (codings lengths : List (List Char)) :
    (framingOf codings lengths = none ∧ Refused codings lengths) ∨
      (lengths = [] ∧ framingOf codings lengths = some (if codings.any listsChunked then .chunked else .none)) ∨
      ∃ length, codings.any listsChunked = false ∧ lengths ≠ [] ∧
        (∀ value ∈ lengths, parseUnsigned 10 (2 ^ 64) value = some length) ∧
        framingOf codings lengths = some (.contentLength length) := by
  by_cases empty : lengths = []
  · exact .inr (.inl ⟨empty, by rw [empty, framingOf_nil]⟩)
  · cases framed : framingOf codings lengths with
    | none => exact .inl ⟨rfl, refused_iff.mp framed⟩
    | some bodyLength =>
      have accepted : ¬ Refused codings lengths := by
        rw [← refused_iff, framed]
        exact Option.some_ne_none _
      obtain ⟨length, same⟩ : ∃ length, ∀ value ∈ lengths, parseUnsigned 10 (2 ^ 64) value = some length := by
        by_contra differ
        exact accepted ⟨empty, .inr differ⟩
      have plain : codings.any listsChunked = false := by
        rw [Bool.eq_false_iff, ne_eq, List.any_eq_true]
        exact fun chunked => accepted ⟨empty, .inl chunked⟩
      refine .inr (.inr ⟨length, plain, empty, same, ?_⟩)
      rw [← framed]
      exact framingOf_eq_contentLength_iff.mpr ⟨plain, empty, same⟩

theorem chunked_only_iff (plain : codings.any listsChunked = false) :
    (∀ coding ∈ allCodings, listsChunked coding = true → ∃ other ∈ codings, listsChunked other = true) ↔
      allCodings.any listsChunked = false := by
  have nowhere : ¬ ∃ other ∈ codings, listsChunked other = true := by
    rw [← List.any_eq_true, plain]
    exact Bool.false_ne_true
  rw [List.any_eq_false]
  refine forall₂_congr fun coding member => ⟨fun added chunked => nowhere (added chunked), ?_⟩
  exact fun added chunked => absurd chunked added

/-- What is refused stays refused with more values. -/
theorem Refused.more (refused : Refused codings lengths) (moreCodings : ∀ coding ∈ codings, coding ∈ allCodings)
    (moreLengths : ∀ value ∈ lengths, value ∈ allLengths) : Refused allCodings allLengths := by
  obtain ⟨filled, cause⟩ := refused
  refine ⟨?_, cause.imp ?_ ?_⟩
  · obtain ⟨value, member⟩ := List.exists_mem_of_ne_nil lengths filled
    exact List.ne_nil_of_mem (moreLengths value member)
  · rintro ⟨coding, member, chunked⟩
    exact ⟨coding, moreCodings coding member, chunked⟩
  · rintro differ ⟨length, all⟩
    exact differ ⟨length, fun value member => all value (moreLengths value member)⟩

theorem framingOf_nil_eq_iff (moreCodings : ∀ coding ∈ codings, coding ∈ allCodings) :
    framingOf codings [] = framingOf allCodings [] ↔
      ∀ coding ∈ allCodings, listsChunked coding = true → ∃ other ∈ codings, listsChunked other = true := by
  rw [framingOf_nil, framingOf_nil, Option.some.injEq]
  cases chunked : codings.any listsChunked with
  | true =>
    obtain ⟨coding, member, isChunked⟩ := List.any_eq_true.mp chunked
    have chunkedToo : allCodings.any listsChunked = true :=
      List.any_eq_true.mpr ⟨coding, moreCodings coding member, isChunked⟩
    rw [chunkedToo]
    exact iff_of_true rfl fun _ _ _ => ⟨coding, member, isChunked⟩
  | false =>
    rw [chunked_only_iff chunked]
    cases allCodings.any listsChunked <;> simp

theorem framingOf_nil_ne (filled : allLengths ≠ []) : framingOf codings [] ≠ framingOf allCodings allLengths := by
  intro same
  rw [framingOf_nil] at same
  rcases framingOf_cases allCodings allLengths with ⟨framed, _⟩ | ⟨none, _⟩ | ⟨length, _, _, _, framed⟩
  · rw [framed] at same
    cases same
  · exact filled none
  · rw [framed, Option.some.injEq] at same
    split at same <;> cases same

/-- More values of the two fields decide the same framing exactly if the first were refused, or the others add neither
    a chunked coding nor a length of their own. -/
theorem framingOf_agree_iff (moreCodings : ∀ coding ∈ codings, coding ∈ allCodings)
    (moreLengths : ∀ value ∈ lengths, value ∈ allLengths) :
    framingOf codings lengths = framingOf allCodings allLengths ↔ Refused codings lengths ∨
      ((∀ coding ∈ allCodings, listsChunked coding = true → ∃ other ∈ codings, listsChunked other = true) ∧
        ∀ value ∈ allLengths, ∃ other ∈ lengths,
          parseUnsigned 10 (2 ^ 64) value = parseUnsigned 10 (2 ^ 64) other) := by
  rcases framingOf_cases codings lengths with ⟨framed, refused⟩ | ⟨rfl, _⟩ | ⟨length, plain, filled, same, framed⟩
  · refine iff_of_true ?_ (.inl refused)
    rw [framed, eq_comm, refused_iff]
    exact refused.more moreCodings moreLengths
  · have accepted : ¬ Refused codings [] := fun refused => refused.1 rfl
    rw [or_iff_right accepted]
    by_cases empty : allLengths = []
    · rw [empty, framingOf_nil_eq_iff moreCodings, and_iff_left (by simp)]
    · refine iff_of_false (framingOf_nil_ne empty) ?_
      rintro ⟨_, added⟩
      obtain ⟨value, member⟩ := List.exists_mem_of_ne_nil allLengths empty
      obtain ⟨other, impossible, _⟩ := added value member
      cases impossible
  · have accepted : ¬ Refused codings lengths := by
      rw [← refused_iff, framed]
      exact Option.some_ne_none _
    obtain ⟨first, inside⟩ := List.exists_mem_of_ne_nil lengths filled
    have filledToo : allLengths ≠ [] := List.ne_nil_of_mem (moreLengths first inside)
    rw [framed, or_iff_right accepted, eq_comm, framingOf_eq_contentLength_iff, chunked_only_iff plain]
    refine and_congr_right fun _ => (and_iff_right filledToo).trans (forall₂_congr fun value _ => ?_)
    constructor
    · exact fun parsed => ⟨first, inside, parsed.trans (same first inside).symm⟩
    · rintro ⟨other, member, parsed⟩
      rw [parsed, same other member]

end Values

section Agreement

variable {name : String} {line : List Char}

theorem valueOf_padded (unpadded : trim name.toList = name.toList) {value : List Char}
    (found : valueOf headerField name line = some value) : valueOf Inference.paddedField name line = some value := by
  unfold valueOf headerField at found
  unfold valueOf Inference.paddedField
  cases cut : splitOnce ':' line with
  | none =>
    rw [cut] at found
    cases found
  | some parts =>
    rw [cut] at found
    simp only [Option.map_some, Option.bind_some] at found ⊢
    split at found
    · rename_i named
      rw [← trim_lowercase, named, if_pos unpadded]
      exact found
    · cases found

theorem valuesOf_padded (unpadded : trim name.toList = name.toList) (fields : List (List Char)) :
    ∀ value ∈ valuesOf headerField name fields, value ∈ valuesOf Inference.paddedField name fields := by
  intro value member
  obtain ⟨line, inside, found⟩ := List.mem_filterMap.mp member
  exact List.mem_filterMap.mpr ⟨line, inside, valueOf_padded unpadded found⟩

/-- The two parsers frame a block alike exactly where the exact fields alone are refused, or the padded ones add
    neither a chunked coding nor a length of their own. -/
theorem framing_agrees_iff (buf : List UInt8) (headers : List Char) (fields : List (List Char))
    (ended : headerEnd buf = some buf.length) (reads : RestReads buf headers) (readsToo : InferenceReads buf fields) :
    (parseBodyLength headers).toOption = Inference.bodyLength fields ↔
      Refused (valuesOf headerField "transfer-encoding" fields) (valuesOf headerField "content-length" fields) ∨
        ((∀ coding ∈ valuesOf Inference.paddedField "transfer-encoding" fields, listsChunked coding = true →
            ∃ other ∈ valuesOf headerField "transfer-encoding" fields, listsChunked other = true) ∧
          ∀ value ∈ valuesOf Inference.paddedField "content-length" fields,
            ∃ other ∈ valuesOf headerField "content-length" fields,
              parseUnsigned 10 (2 ^ 64) value = parseUnsigned 10 (2 ^ 64) other) := by
  obtain ⟨behind, whole⟩ := headerLines_of_block ended reads readsToo
  have blank : ∀ name, valuesOf headerField name (fields ++ [[]]) = valuesOf headerField name fields := by
    intro name
    unfold valuesOf
    rw [List.filterMap_append]
    exact List.append_nil _
  rw [parseBodyLength_eq, inference_bodyLength, whole, behind, blank, blank]
  exact framingOf_agree_iff (valuesOf_padded (by decide) fields) (valuesOf_padded (by decide) fields)

def paddedBlock : List Char := "POST /v1/chat HTTP/1.1\r\nContent-Length : 5\r\n\r\n".toList

/-- A space before the colon hides the length from the REST parser. -/
theorem paddedBlock_differs : headerEnd (utf8Encode paddedBlock) = some (utf8Encode paddedBlock).length ∧
    RestReads (utf8Encode paddedBlock) paddedBlock ∧
    InferenceReads (utf8Encode paddedBlock) ["Content-Length : 5".toList] ∧
    (parseBodyLength paddedBlock).toOption = some .none ∧
    Inference.bodyLength ["Content-Length : 5".toList] = some (.contentLength 5) := by
  refine ⟨by decide +kernel, ⟨by decide +kernel, utf8Decode_encode _, ?_⟩, ⟨?_⟩, by decide +kernel, by decide +kernel⟩
  · exact ⟨"POST /v1/chat HTTP/1.1".toList, ("POST".toList, "/v1/chat".toList), by decide +kernel, by rfl⟩
  · exact ⟨42, "POST /v1/chat HTTP/1.1\r\nContent-Length : 5".toList, "POST /v1/chat HTTP/1.1".toList, "POST".toList,
      "/v1/chat".toList, ["HTTP/1.1".toList], by decide +kernel, by decide +kernel, by decide +kernel, by decide +kernel⟩

def exactBlock : List Char := "POST /v1/chat HTTP/1.1\r\nContent-Length: 5\r\n\r\n".toList

theorem exactBlock_agrees : (parseBodyLength exactBlock).toOption = Inference.bodyLength ["Content-Length: 5".toList] := by
  have reads : RestReads (utf8Encode exactBlock) exactBlock := by
    refine ⟨by decide +kernel, utf8Decode_encode _, ?_⟩
    exact ⟨"POST /v1/chat HTTP/1.1".toList, ("POST".toList, "/v1/chat".toList), by decide +kernel, by rfl⟩
  have readsToo : InferenceReads (utf8Encode exactBlock) ["Content-Length: 5".toList] :=
    ⟨⟨41, "POST /v1/chat HTTP/1.1\r\nContent-Length: 5".toList, "POST /v1/chat HTTP/1.1".toList, "POST".toList,
      "/v1/chat".toList, ["HTTP/1.1".toList], by decide +kernel, by decide +kernel, by decide +kernel, by decide +kernel⟩⟩
  refine (framing_agrees_iff _ exactBlock _ (by decide +kernel) reads readsToo).mpr (.inr ⟨?_, ?_⟩)
  · decide +kernel
  · decide +kernel

end Agreement

end OpenShell.Sandbox
