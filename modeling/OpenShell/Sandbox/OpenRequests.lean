import OpenShell.Sandbox.InferenceRequests
import OpenShell.Sandbox.OpenBodies

namespace OpenShell.Sandbox.Inference

open Text Results

/-! Buffers for which more data can lead to a request or to a refusal. -/

/-- The request line, if it has ended, has a method and a path. -/
def LineReadable (buf : List UInt8) : Prop :=
  ∀ lineEnd, position crlf buf = some lineEnd → ∃ text method path more,
    utf8Decode (buf.take lineEnd) = some text ∧ splitWhitespace text = method :: path :: more

/-- What may follow the buffer: the header block is open and can still be read; or it can be read, and the body has its
    length within a slice; or the chunks of the body can go on within the limits. -/
inductive CanEnd (buf : List UInt8) : Prop
  | header {text : List Char} (unended : position (crlf ++ crlf) buf = none) (begins : buf <+: utf8Encode text)
      (readable : LineReadable buf)
  | sized {headerEnd : Nat} {head : Head} (block : HeaderBlock buf headerEnd (some head)) (plain : head.framing ≠ .chunked)
      (fits : headerEnd + 4 + head.length ≤ maxSlice)
  | chunked {headerEnd need : Nat} {head : Head} (block : HeaderBlock buf headerEnd (some head))
      (chunked : head.framing = .chunked)
      (continues : Continues limits.chunkCount limits.chunkedBody (buf.drop (headerEnd + 4)) need)
      (fits : headerEnd + 4 + need ≤ maxSlice)

/-! Lines and blocks of a text, as bytes. -/

section Bytes

variable {text line requestLine headerStr : List Char} {lines : List (List Char)}

theorem isLine_encode (whole : ¬ crlfText <:+: line) : IsLine (utf8Encode line) := by
  apply isLine_of_none
  rw [position_none_iff_notInfix]
  intro found
  exact whole (((sameAscii_encode line).infix_iff (by decide) (by decide)).mp found)

/-- The first line of a block ends at the first line break in its bytes. -/
theorem position_requestLine (cut : splitCrlf headerStr = requestLine :: lines) (after : List UInt8) :
    position crlf (utf8Encode headerStr ++ (crlf ++ after)) = some (utf8Encode requestLine).length ∧
      (utf8Encode headerStr ++ (crlf ++ after)).take (utf8Encode requestLine).length = utf8Encode requestLine := by
  have whole := crlf_notInfix_line (show requestLine ∈ splitCrlf headerStr by rw [cut]; exact List.mem_cons_self)
  have starts : ∃ rest, utf8Encode headerStr ++ (crlf ++ after) = utf8Encode requestLine ++ crlf ++ rest := by
    rcases splitCrlf_eq_cons cut with ⟨_, rfl⟩ | ⟨rest, rfl, _⟩
    · exact ⟨after, by rw [List.append_assoc]⟩
    · refine ⟨utf8Encode rest ++ (crlf ++ after), ?_⟩
      simp only [utf8Encode_append, utf8Encode_crlfText, List.append_assoc]
  obtain ⟨rest, same⟩ := starts
  rw [same]
  refine ⟨(isLine_encode whole).position rest, ?_⟩
  rw [List.append_assoc, List.take_left]

/-- A block without a blank line ends where one is put behind it. -/
theorem position_block (filled : [] ∉ (splitCrlf headerStr).tail) :
    position (crlf ++ crlf) (utf8Encode headerStr ++ (crlf ++ crlf)) = some (utf8Encode headerStr).length := by
  have none : position (crlf ++ crlf) (utf8Encode headerStr ++ crlf) = none := by
    have text : utf8Encode headerStr ++ crlf = utf8Encode (headerStr ++ crlfText) := by
      rw [utf8Encode_append, utf8Encode_crlfText]
    have ascii : Ascii (crlfText ++ crlfText) := by decide
    rw [position_none_iff_notInfix, text]
    intro found
    exact filled (blank_iff.mp (((sameAscii_encode _).infix_iff ascii (by decide)).mp found))
  refine position_behind (by decide) ?_
  have last : (crlf ++ crlf).dropLast = crlf ++ [0x0D] := by decide
  rw [last, ← List.append_assoc]
  refine (position_concat 0x0D none).2 fun ends => ?_
  obtain ⟨start, same⟩ := ends
  have ended := congrArg List.getLast? same
  rw [List.getLast?_append_of_ne_nil _ (by decide), List.getLast?_concat] at ended
  cases ended

end Bytes

/-! An open header block can be led to a refusal. -/

/-- What is put behind the text of an open block: more words for its last line, and a length that is no number. -/
def closing : List Char := " a a\r\nContent-Length:x".toList

section Header

variable {buf tail : List UInt8} {text : List Char}

theorem closed_cut (text : List Char) : ∃ requestLine lines,
    splitCrlf (text ++ " a a".toList) = requestLine :: lines ∧
      splitCrlf (text ++ closing) = requestLine :: (lines ++ ["Content-Length:x".toList]) := by
  obtain ⟨requestLine, lines, cut⟩ := List.exists_cons_of_ne_nil (splitCrlf_ne_nil (text ++ " a a".toList))
  refine ⟨requestLine, lines, cut, ?_⟩
  have parts : text ++ closing = (text ++ " a a".toList) ++ (crlfText ++ "Content-Length:x".toList) := by
    rw [List.append_assoc]
    rfl
  have single : splitCrlf "Content-Length:x".toList = ["Content-Length:x".toList] := by decide
  rw [parts, splitCrlf_append, cut, single]
  rfl

theorem infix_words {pattern : List Char} (apart : ' ' ∉ pattern) (other : ¬ pattern <:+: "a a".toList)
    (found : pattern <:+: text ++ " a a".toList) : pattern <:+: text := by
  rcases infix_append_cons apart found with here | behind
  · exact here
  · exact absurd behind other

/-- The bytes are those of a text cut inside its last character. -/
structure Completed (buf tail : List UInt8) (text : List Char) : Prop where
  whole : buf ++ tail = utf8Encode text
  small : tail.length ≤ 3
  high : ∀ byte ∈ tail, 0x80 ≤ byte

theorem Completed.position_eq (completed : Completed buf tail text) {pattern : List UInt8} (filled : pattern ≠ [])
    (low : ∀ byte ∈ pattern, byte < 0x80) : position pattern (utf8Encode text) = position pattern buf := by
  rw [← completed.whole]
  apply position_trail filled
  intro byte inside member
  exact absurd (completed.high byte member) (UInt8.not_le.mpr (low byte inside))

theorem Completed.blank (completed : Completed buf tail text) (unended : position (crlf ++ crlf) buf = none) :
    [] ∉ (splitCrlf (text ++ closing)).tail := by
  obtain ⟨requestLine, lines, cut, cutToo⟩ := closed_cut text
  rw [cutToo, List.tail_cons, List.mem_append]
  rintro (empty | impossible)
  · have blank : crlfText ++ crlfText <:+: text ++ " a a".toList ++ crlfText := blank_iff.mpr (by rw [cut]; exact empty)
    rw [List.append_assoc] at blank
    have inText : crlfText ++ crlfText <:+: text := by
      rcases infix_append_cons (by decide : ' ' ∉ crlfText ++ crlfText) blank with here | behind
      · exact here
      · exact absurd behind (by decide)
    have inBytes := ((sameAscii_encode text).infix_iff (by decide) (by decide)).mpr inText
    have none := completed.position_eq (by decide : crlf ++ crlf ≠ []) (by simp [crlf])
    rw [unended, position_none_iff_notInfix] at none
    exact none inBytes
  · revert impossible
    decide

/-- A text with two words behind it has two words. -/
theorem words_behind (text : List Char) :
    ∃ method path more, splitWhitespace (text ++ " a a".toList) = method :: path :: more := by
  have two : splitWhitespace "a a".toList = ["a".toList, "a".toList] := by decide
  have words : splitWhitespace (text ++ " a a".toList) = splitWhitespace text ++ ["a".toList, "a".toList] := by
    rw [← two]
    exact splitWhitespace_append_cons (by decide) text "a a".toList
  rw [words]
  cases splitWhitespace text with
  | nil => exact ⟨_, _, _, rfl⟩
  | cons first others =>
    cases others with
    | nil => exact ⟨_, _, _, rfl⟩
    | cons second others => exact ⟨_, _, _, rfl⟩

/-- A line that has ended in the buffer is the first line of every block that begins with the buffer. -/
theorem requestLine_decoded {after : List UInt8} {headerStr requestLine : List Char} {lines : List (List Char)} {lineEnd : Nat}
    (cut : splitCrlf headerStr = requestLine :: lines) (begins : buf <+: utf8Encode headerStr ++ (crlf ++ after))
    (found : position crlf buf = some lineEnd) : utf8Decode (buf.take lineEnd) = some requestLine := by
  obtain ⟨more, whole⟩ := begins
  obtain ⟨foundToo, line⟩ := position_requestLine cut after
  rw [← whole, position_append found, Option.some.injEq] at foundToo
  have reached := position_reaches found
  rw [← whole, ← foundToo, List.take_append_of_le_length (by omega)] at line
  rw [line, utf8Decode_encode]

/-- The first line of the completed block has a method and a path. -/
theorem Completed.words (completed : Completed buf tail text) (readable : LineReadable buf) {requestLine : List Char}
    {lines : List (List Char)} (cut : splitCrlf (text ++ " a a".toList) = requestLine :: lines) :
    ∃ method path more, splitWhitespace requestLine = method :: path :: more := by
  rcases splitCrlf_eq_cons cut with ⟨_, rfl⟩ | ⟨rest, same, _⟩
  · -- the line was open, and the words put behind it are enough
    exact words_behind text
  · -- the line had ended in the buffer
    have inText : crlfText <:+: text := by
      refine infix_words (by decide) (by decide) ?_
      rw [same]
      exact ⟨requestLine, rest, by rw [List.append_assoc]⟩
    have inBytes := ((sameAscii_encode text).infix_iff (by decide) (by decide)).mpr inText
    cases found : position crlf buf with
    | none =>
      have none := completed.position_eq (by decide : crlf ≠ []) (by simp [crlf])
      rw [found, position_none_iff_notInfix] at none
      exact absurd inBytes none
    | some lineEnd =>
      obtain ⟨lineText, method, path, more, decoded, words⟩ := readable lineEnd found
      have begins : buf <+: utf8Encode (text ++ " a a".toList) ++ (crlf ++ []) := by
        rw [utf8Encode_append, ← completed.whole]
        simp only [List.append_assoc]
        exact List.prefix_append _ _
      rw [requestLine_decoded cut begins found, Option.some.injEq] at decoded
      rw [decoded]
      exact ⟨method, path, more, words⟩

/-- The length that is no number is refused. -/
theorem framing_closed {lines : List (List Char)} (closed : "Content-Length:x".toList ∈ lines) : framing lines = none := by
  have value : "x".toList ∈ valuesOf paddedField "content-length" lines :=
    List.mem_filterMap.mpr ⟨_, closed, by decide⟩
  rw [framing, framingOf_eq_none_iff (List.ne_nil_of_mem value)]
  right
  rintro ⟨length, all⟩
  have parsed := all _ value
  cases parsed

/-- An open header block that can still be read has a refused one as its continuation. -/
theorem header_completes (unended : position (crlf ++ crlf) buf = none) (begins : buf <+: utf8Encode text)
    (readable : LineReadable buf) :
    ∃ more headerEnd, more.length ≤ 64 ∧ HeaderBlock (buf ++ more) headerEnd none := by
  obtain ⟨tail, text, whole, small, high⟩ := utf8_complete begins
  have completed : Completed buf tail text := ⟨whole, small, high⟩
  obtain ⟨requestLine, lines, cut, cutToo⟩ := closed_cut text
  obtain ⟨method, path, more, words⟩ := completed.words readable cut
  have blank := completed.blank unended
  have bytes : buf ++ (tail ++ (utf8Encode closing ++ (crlf ++ crlf))) = utf8Encode (text ++ closing) ++ (crlf ++ crlf) := by
    rw [utf8Encode_append, ← whole]
    simp only [List.append_assoc]
  refine ⟨tail ++ (utf8Encode closing ++ (crlf ++ crlf)), (utf8Encode (text ++ closing)).length, ?_, ?_, ?_⟩
  · have length : (utf8Encode closing ++ (crlf ++ crlf)).length = 26 := by decide
    rw [List.length_append, length]
    omega
  · rw [bytes]
    exact position_block blank
  · rw [bytes, List.take_left, headOf, requestParts, utf8Decode_encode, Option.bind_some, cutToo]
    simp only [words, Option.map_some, Option.some.injEq, Option.map_eq_none_iff]
    apply framing_closed
    rw [cutToo, List.tail_cons] at blank
    have nonempty : fieldLines (lines ++ ["Content-Length:x".toList]) = lines ++ ["Content-Length:x".toList] := by
      rw [fieldLines, List.takeWhile_eq_self_iff]
      intro line member
      cases line with
      | nil => exact absurd member blank
      | cons => rfl
    rw [nonempty]
    exact List.mem_append_right _ (List.mem_singleton_self _)

/-- What comes before a header block that can be read is the start of a text, with a request line that can be read. -/
theorem header_begins {more : List UInt8} {headerEnd : Nat} {head : Option Head} (unended : position (crlf ++ crlf) buf = none)
    (block : HeaderBlock (buf ++ more) headerEnd head) : (∃ text, buf <+: utf8Encode text) ∧ LineReadable buf := by
  have readable := block.reads
  obtain ⟨parts, readable, _⟩ := Option.map_eq_some_iff.mp readable
  obtain ⟨headerStr, requestLine, lines, others, decoded, cut, words, _⟩ := requestParts_eq_some readable
  obtain ⟨before, after, whole, length, header, _⟩ := position_cut block.found
  rw [header] at decoded
  have encoded := utf8Decode_eq_some decoded
  rw [← encoded, List.append_assoc] at whole
  have longer : buf.length < headerEnd + 4 := by
    by_contra short
    have early := position_of_prefix block.found (List.prefix_append buf more)
      (show headerEnd + 4 ≤ buf.length by omega)
    rw [unended] at early
    cases early
  constructor
  · refine ⟨headerStr ++ (crlfText ++ crlfText), ?_⟩
    have four : utf8Encode (headerStr ++ (crlfText ++ crlfText)) = utf8Encode headerStr ++ (crlf ++ crlf) := by
      rw [utf8Encode_append]
      rfl
    rw [four]
    refine List.prefix_of_prefix_length_le (List.prefix_append buf more) ?_ ?_
    · rw [whole]
      exact ⟨after, by simp only [List.append_assoc]⟩
    · have size : (crlf ++ crlf).length = 4 := rfl
      rw [List.length_append, encoded, size, length]
      omega
  · intro lineEnd found
    have line := requestLine_decoded cut (by rw [← whole]; exact List.prefix_append buf more) found
    exact ⟨requestLine, parts.1, parts.2.1, others, line, words⟩

end Header

section Extension

variable {buf : List UInt8}

/-- The buffer has a header block that is refused, or a whole request. -/
def Ends (buf : List UInt8) : Prop :=
  (∃ headerEnd, HeaderBlock buf headerEnd none) ∨
    ∃ headerEnd head body length, HeaderBlock buf headerEnd (some head) ∧
      head.Carries (buf.drop (headerEnd + 4)) body length

theorem ends_iff (overflowChecks : Bool) (bounded : buf.length ≤ maxSlice) :
    (∃ result, tryParseHttpRequest overflowChecks buf = .ok result ∧ result ≠ .incomplete) ↔ Ends buf := by
  unfold Ends
  rw [← tryParse_invalid_iff overflowChecks bounded]
  constructor
  · rintro ⟨result, parsed, ends⟩
    cases result with
    | complete request consumed =>
      obtain ⟨headerEnd, head, body, length, block, carries, _⟩ := (tryParse_complete_iff overflowChecks bounded).mp parsed
      exact .inr ⟨headerEnd, head, body, length, block, carries⟩
    | incomplete => exact absurd rfl ends
    | invalid reason => exact .inl ⟨reason, parsed⟩
  · rintro (⟨reason, parsed⟩ | ⟨headerEnd, head, body, length, block, carries⟩)
    · exact ⟨_, parsed, by rintro ⟨⟩⟩
    · exact ⟨_, (tryParse_complete_iff overflowChecks bounded).mpr ⟨headerEnd, head, body, length, block, carries, rfl, rfl⟩,
        by rintro ⟨⟩⟩

/-- A header block that ends in the buffer is the one of every longer buffer. -/
theorem HeaderBlock.of_append {more : List UInt8} {blockEnd headerEnd : Nat} {head : Option Head}
    (found : position (crlf ++ crlf) buf = some blockEnd) (block : HeaderBlock (buf ++ more) headerEnd head) :
    HeaderBlock buf headerEnd head := by
  have same : blockEnd = headerEnd := Option.some.inj ((position_append found more).symm.trans block.found)
  subst same
  have reached := position_reaches found
  have reads := block.reads
  rw [List.take_append_of_le_length (by omega)] at reads
  exact ⟨found, reads⟩

/-- A body of a known length is completed with zeros. -/
theorem sized_completes {headerEnd : Nat} {head : Head} (roomy : buf.length + 64 ≤ maxSlice)
    (block : HeaderBlock buf headerEnd (some head)) (plain : head.framing ≠ .chunked)
    (fits : headerEnd + 4 + head.length ≤ maxSlice) :
    ∃ more body length, (buf ++ more).length ≤ maxSlice ∧ head.Carries ((buf ++ more).drop (headerEnd + 4)) body length := by
  have reached := block.reached
  let zeros : List UInt8 := List.replicate (headerEnd + 4 + head.length - buf.length) 0
  have length : (buf ++ zeros).length = buf.length + (headerEnd + 4 + head.length - buf.length) := by
    rw [List.length_append, List.length_replicate]
  have carries : head.Carries ((buf ++ zeros).drop (headerEnd + 4))
      (((buf ++ zeros).drop (headerEnd + 4)).take head.length) head.length := by
    rw [Head.Carries, if_neg plain, List.length_drop, length]
    exact ⟨rfl, by omega, rfl⟩
  exact ⟨zeros, _, _, by omega, carries⟩

theorem chunked_can_end_iff {headerEnd : Nat} {head : Head} (roomy : buf.length + 64 ≤ maxSlice)
    (block : HeaderBlock buf headerEnd (some head)) (chunked : head.framing = .chunked)
    (unended : ∀ body length, ¬ head.Carries (buf.drop (headerEnd + 4)) body length) :
    (∃ more body length, (buf ++ more).length ≤ maxSlice ∧ head.Carries ((buf ++ more).drop (headerEnd + 4)) body length) ↔
      ∃ need, Continues limits.chunkCount limits.chunkedBody (buf.drop (headerEnd + 4)) need ∧
        headerEnd + 4 + need ≤ maxSlice := by
  have reached := block.reached
  have room : (buf.drop (headerEnd + 4)).length + 4 ≤ maxSlice - (headerEnd + 4) := by
    rw [List.length_drop]
    omega
  simp only [Head.Carries, if_pos chunked] at unended ⊢
  have continues := @continues_iff (buf.drop (headerEnd + 4)) limits.chunkCount limits.chunkedBody _ room unended
  constructor
  · rintro ⟨more, body, length, short, decodes⟩
    rw [List.drop_append_of_le_length reached] at decodes
    obtain ⟨need, goesOn, small⟩ := continues.mp ⟨more, body, length, by
      simp only [List.length_append, List.length_drop] at short ⊢
      omega, decodes⟩
    exact ⟨need, goesOn, by omega⟩
  · rintro ⟨need, goesOn, small⟩
    obtain ⟨more, body, length, short, decodes⟩ := continues.mpr ⟨need, goesOn, by omega⟩
    refine ⟨more, body, length, ?_, ?_⟩
    · simp only [List.length_append, List.length_drop] at short ⊢
      omega
    · rw [List.drop_append_of_le_length reached]
      exact decodes

theorem canEnd_of_ends {more : List UInt8} (roomy : buf.length + 64 ≤ maxSlice) (unended : ¬ Ends buf)
    (short : (buf ++ more).length ≤ maxSlice) (ends : Ends (buf ++ more)) : CanEnd buf := by
  cases found : position (crlf ++ crlf) buf with
  | none =>
    obtain ⟨headerEnd, head, block⟩ : ∃ headerEnd head, HeaderBlock (buf ++ more) headerEnd head := by
      rcases ends with ⟨headerEnd, block⟩ | ⟨headerEnd, head, _, _, block, _⟩
      · exact ⟨headerEnd, _, block⟩
      · exact ⟨headerEnd, _, block⟩
    obtain ⟨⟨text, begins⟩, readable⟩ := header_begins found block
    exact .header found begins readable
  | some blockEnd =>
    rcases ends with ⟨headerEnd, block⟩ | ⟨headerEnd, head, body, length, block, carries⟩
    · exact absurd (.inl ⟨headerEnd, HeaderBlock.of_append found block⟩) unended
    · have own := HeaderBlock.of_append found block
      by_cases chunked : head.framing = .chunked
      · obtain ⟨need, continues, fits⟩ := (chunked_can_end_iff roomy own chunked fun body length carries =>
          unended (.inr ⟨headerEnd, head, body, length, own, carries⟩)).mp ⟨more, body, length, short, carries⟩
        exact .chunked own chunked continues fits
      · have within := carries.head_length_le
        have reached := block.reached
        rw [List.length_drop] at within
        exact .sized own chunked (by omega)

theorem ends_of_canEnd (roomy : buf.length + 64 ≤ maxSlice) (unended : ¬ Ends buf) (canEnd : CanEnd buf) :
    ∃ more, (buf ++ more).length ≤ maxSlice ∧ Ends (buf ++ more) := by
  cases canEnd with
  | header open_end begins readable =>
    obtain ⟨more, headerEnd, small, block⟩ := header_completes open_end begins readable
    refine ⟨more, ?_, .inl ⟨headerEnd, block⟩⟩
    rw [List.length_append]
    omega
  | @sized headerEnd head block plain fits =>
    obtain ⟨more, body, length, short, carries⟩ := sized_completes roomy block plain fits
    exact ⟨more, short, .inr ⟨headerEnd, head, body, length, block.append more, carries⟩⟩
  | @chunked headerEnd need head block chunked continues fits =>
    obtain ⟨more, body, length, short, carries⟩ := (chunked_can_end_iff roomy block chunked fun body length carries =>
      unended (.inr ⟨headerEnd, head, body, length, block, carries⟩)).mpr ⟨need, continues, fits⟩
    exact ⟨more, short, .inr ⟨headerEnd, head, body, length, block.append more, carries⟩⟩

end Extension

/-- A buffer for which the parser asks for more data has a continuation that it takes or refuses, exactly if it can end:
    not if it is no text, lacks a path, or has a chunk that is malformed or beyond the limits. -/
theorem incomplete_can_end_iff (overflowChecks : Bool) (buf : List UInt8) (roomy : buf.length + 64 ≤ maxSlice)
    (incomplete : tryParseHttpRequest overflowChecks buf = .ok .incomplete) :
    (∃ more result, (buf ++ more).length ≤ maxSlice ∧ tryParseHttpRequest overflowChecks (buf ++ more) = .ok result ∧
      result ≠ .incomplete) ↔ CanEnd buf := by
  have unended : ¬ Ends buf := by
    rw [← ends_iff overflowChecks (by omega)]
    rintro ⟨result, parsed, ends⟩
    rw [incomplete, Except.ok.injEq] at parsed
    exact ends parsed.symm
  constructor
  · rintro ⟨more, result, short, ends⟩
    exact canEnd_of_ends roomy unended short ((ends_iff overflowChecks short).mp ⟨result, ends⟩)
  · intro canEnd
    obtain ⟨more, short, ends⟩ := ends_of_canEnd roomy unended canEnd
    obtain ⟨result, parsed⟩ := (ends_iff overflowChecks short).mpr ends
    exact ⟨more, result, short, parsed⟩

/-- The buffer is the start of a request that is well formed, with a body of any size. -/
inductive WellFormed (buf : List UInt8) : Prop
  | header {text : List Char} (unended : position (crlf ++ crlf) buf = none) (begins : buf <+: utf8Encode text)
      (readable : LineReadable buf)
  | sized {headerEnd : Nat} {head : Head} (block : HeaderBlock buf headerEnd (some head)) (plain : head.framing ≠ .chunked)
  | chunked {headerEnd : Nat} {head : Head} {lines : List (List UInt8)} {decoded body : List UInt8}
      (block : HeaderBlock buf headerEnd (some head)) (chunked : head.framing = .chunked)
      (part : ChunkedAs lines decoded body) (starts : buf.drop (headerEnd + 4) <+: body)

/-- The body that the buffer begins can come to its end within the limits, and within a slice. -/
def WithinLimits (buf : List UInt8) : Prop :=
  ∀ headerEnd head, HeaderBlock buf headerEnd (some head) →
    if head.framing = .chunked then
      ∃ need, Continues limits.chunkCount limits.chunkedBody (buf.drop (headerEnd + 4)) need ∧
        headerEnd + 4 + need ≤ maxSlice
    else headerEnd + 4 + head.length ≤ maxSlice

theorem withinLimits_block {buf : List UInt8} {headerEnd : Nat} {head : Head} (block : HeaderBlock buf headerEnd (some head)) :
    WithinLimits buf ↔ CanEnd buf := by
  constructor
  · intro within
    have here := within headerEnd head block
    split at here
    · rename_i chunked
      obtain ⟨need, continues, fits⟩ := here
      exact .chunked block chunked continues fits
    · rename_i plain
      exact .sized block plain here
  · intro canEnd other headToo blockToo
    cases canEnd with
    | header unended _ _ =>
      have found := block.found
      rw [unended] at found
      cases found
    | sized own plain fits =>
      obtain ⟨rfl, same⟩ := own.unique blockToo
      cases same
      rw [if_neg plain]
      exact fits
    | chunked own chunked continues fits =>
      obtain ⟨rfl, same⟩ := own.unique blockToo
      cases same
      rw [if_pos chunked]
      exact ⟨_, continues, fits⟩

/-- For the start of a well-formed request, the parser asks for more data where more data can help, and where the body
    is beyond the limits. -/
theorem wellFormed_can_end_iff (overflowChecks : Bool) (buf : List UInt8) (roomy : buf.length + 64 ≤ maxSlice)
    (wellFormed : WellFormed buf) (incomplete : tryParseHttpRequest overflowChecks buf = .ok .incomplete) :
    (∃ more result, (buf ++ more).length ≤ maxSlice ∧ tryParseHttpRequest overflowChecks (buf ++ more) = .ok result ∧
      result ≠ .incomplete) ↔ WithinLimits buf := by
  rw [incomplete_can_end_iff overflowChecks buf roomy incomplete]
  cases wellFormed with
  | header unended begins readable =>
    refine iff_of_true (.header unended begins readable) ?_
    intro headerEnd head block
    have found := block.found
    rw [unended] at found
    cases found
  | sized block plain => exact (withinLimits_block block).symm
  | chunked block chunked part starts => exact (withinLimits_block block).symm

/-- A chunk of one byte more than the limit is announced. -/
def overLimit : List UInt8 :=
  utf8Encode "POST /v1/chat HTTP/1.1\r\nTransfer-Encoding: chunked\r\n\r\nA00001\r\n".toList

theorem overLimit_block {more : List UInt8} {headerEnd : Nat} {head : Option Head}
    (block : HeaderBlock (overLimit ++ more) headerEnd head) : headerEnd = 50 ∧ head = some ⟨"POST".toList,
      "/v1/chat".toList, [("Transfer-Encoding".toList, "chunked".toList)], .chunked⟩ := by
  have found : position (crlf ++ crlf) overLimit = some 50 := by decide
  have own := HeaderBlock.of_append found block
  have same : headerEnd = 50 := Option.some.inj (own.found.symm.trans found)
  subst same
  have reads := own.reads
  rw [show headOf (overLimit.take 50) = some (some ⟨"POST".toList, "/v1/chat".toList,
    [("Transfer-Encoding".toList, "chunked".toList)], .chunked⟩) by decide, Option.some.injEq] at reads
  exact ⟨rfl, reads.symm⟩

/-- The parser asks for more data, and no more data helps. -/
theorem overLimit_never_ends : tryParseHttpRequest true overLimit = .ok .incomplete ∧
    ¬ ∃ more result, (overLimit ++ more).length ≤ maxSlice ∧ tryParseHttpRequest true (overLimit ++ more) = .ok result ∧
      result ≠ .incomplete := by
  refine ⟨by decide +kernel, ?_⟩
  rintro ⟨more, result, short, ends⟩
  rcases (ends_iff true short).mp ⟨result, ends⟩ with ⟨headerEnd, block⟩ | ⟨headerEnd, head, body, length, block, carries⟩
  · cases (overLimit_block block).2
  · obtain ⟨rfl, same⟩ := overLimit_block block
    cases same
    have decodes : Decodes limits.chunkCount limits.chunkedBody ((overLimit ++ more).drop 54) body length := carries
    rw [List.drop_append_of_le_length (by decide +kernel)] at decodes
    have found : position crlf (overLimit.drop 54) = some 6 := by decide +kernel
    have size : OpenShell.Sandbox.chunkSize ((overLimit.drop 54 ++ more).take 6) = .ok 10485761 := by
      rw [List.take_append_of_le_length (by decide +kernel)]
      rfl
    obtain ⟨_, _, _, _, _, fits, _⟩ := decodes.payload (position_append found more) size (by decide)
    have limit : limits.chunkedBody = 10485760 := rfl
    omega

def halfRequest : List UInt8 := utf8Encode "POST /v1/chat HTTP/1.1\r\nContent-Length: 2\r\n\r\nh".toList

theorem halfRequest_ends : ∃ more result, (halfRequest ++ more).length ≤ maxSlice ∧
    tryParseHttpRequest true (halfRequest ++ more) = .ok result ∧ result ≠ .incomplete := by
  have block : HeaderBlock halfRequest 41 (some ⟨"POST".toList, "/v1/chat".toList,
      [("Content-Length".toList, "2".toList)], .contentLength 2⟩) :=
    ⟨by decide +kernel, by decide +kernel⟩
  refine (wellFormed_can_end_iff true halfRequest (by decide +kernel) (.sized block (by rintro ⟨⟩))
    (by decide +kernel)).mpr ((withinLimits_block block).mpr ?_)
  exact .sized block (by rintro ⟨⟩) (by decide +kernel)

end OpenShell.Sandbox.Inference
