import OpenShell.Sandbox.InferenceBodies
import OpenShell.Sandbox.InferenceHeads

namespace OpenShell.Sandbox.Inference

open Text Results

/-! What the parser of inference requests makes of a buffer. -/

/-- The bytes behind the header block begin with the body, which takes that many of them. -/
def Head.Carries (head : Head) (rest body : List UInt8) (length : Nat) : Prop :=
  if head.framing = .chunked then Decodes limits.chunkCount limits.chunkedBody rest body length
  else length = head.length ∧ length ≤ rest.length ∧ body = rest.take length

/-- The buffer has a whole header block that can be read, with what it says. -/
structure HeaderBlock (buf : List UInt8) (headerEnd : Nat) (head : Option Head) : Prop where
  found : position (crlf ++ crlf) buf = some headerEnd
  reads : headOf (buf.take headerEnd) = some head

section Carries

variable {head : Head} {rest body other : List UInt8} {length otherLength : Nat}

theorem Head.Carries.append (carries : head.Carries rest body length) (more : List UInt8) :
    head.Carries (rest ++ more) body length := by
  unfold Carries at carries ⊢
  split at carries
  · rename_i chunked
    rw [if_pos chunked]
    exact carries.append more
  · rename_i plain
    obtain ⟨same, within, taken⟩ := carries
    rw [if_neg plain, List.length_append, List.take_append_of_le_length within]
    exact ⟨same, by omega, taken⟩

theorem Head.Carries.unique (carries : head.Carries rest body length) (carriesToo : head.Carries rest other otherLength) :
    body = other ∧ length = otherLength := by
  unfold Carries at carries carriesToo
  split at carries
  · rename_i chunked
    rw [if_pos chunked] at carriesToo
    exact carries.unique carriesToo
  · rename_i plain
    rw [if_neg plain] at carriesToo
    obtain ⟨rfl, _, rfl⟩ := carries
    obtain ⟨rfl, _, rfl⟩ := carriesToo
    exact ⟨rfl, rfl⟩

theorem Head.Carries.length_le (carries : head.Carries rest body length) : length ≤ rest.length := by
  unfold Carries at carries
  split at carries
  · exact carries.length_le
  · exact carries.2.1

theorem Head.Carries.head_length_le (carries : head.Carries rest body length) : head.length ≤ rest.length := by
  unfold Carries at carries
  split at carries
  · rename_i chunked
    unfold Head.length
    rw [chunked]
    exact Nat.zero_le _
  · rw [← carries.1]
    exact carries.2.1

end Carries

section Blocks

variable {buf : List UInt8} {headerEnd : Nat} {head : Option Head}

theorem HeaderBlock.reached (block : HeaderBlock buf headerEnd head) : headerEnd + 4 ≤ buf.length :=
  position_reaches block.found

theorem HeaderBlock.append (block : HeaderBlock buf headerEnd head) (more : List UInt8) :
    HeaderBlock (buf ++ more) headerEnd head where
  found := position_append block.found more
  reads := by
    have reached := block.reached
    rw [List.take_append_of_le_length (by omega)]
    exact block.reads

theorem HeaderBlock.unique {other : Nat} {headToo : Option Head} (block : HeaderBlock buf headerEnd head)
    (blockToo : HeaderBlock buf other headToo) : headerEnd = other ∧ head = headToo := by
  obtain rfl : headerEnd = other := Option.some.inj (block.found.symm.trans blockToo.found)
  exact ⟨rfl, Option.some.inj (block.reads.symm.trans blockToo.reads)⟩

end Blocks

section Parse

variable {overflowChecks : Bool} {buf : List UInt8} {headerEnd : Nat} {head : Head}

theorem tryParse_chunked (bounded : buf.length ≤ maxSlice) (block : HeaderBlock buf headerEnd (some head))
    (chunked : head.framing = .chunked) :
    (∃ body length, head.Carries (buf.drop (headerEnd + 4)) body length ∧
        tryParseHttpRequest overflowChecks buf = .ok (.complete (head.request body) (headerEnd + 4 + length))) ∨
      (tryParseHttpRequest overflowChecks buf = .ok .incomplete ∧
        ∀ body length, ¬ head.Carries (buf.drop (headerEnd + 4)) body length) := by
  obtain ⟨headers, parsed, plain, _, isChunked⟩ :=
    @tryParse_accepted overflowChecks buf headerEnd head bounded block.found block.reads
  unfold Head.Carries
  simp only [if_pos chunked]
  rw [parsed, parseBody, plain, if_neg Bool.false_ne_true, if_pos (isChunked.mpr chunked)]
  rcases @parseChunkedBody_cases buf limits (headerEnd + 4) overflowChecks bounded block.reached with
    ⟨decoded, length, decodes, result⟩ | ⟨result, none⟩
  · rw [result]
    exact .inl ⟨decoded, length, decodes, rfl⟩
  · rw [result]
    exact .inr ⟨rfl, none⟩

/-- The branch of the parser for a body of a known length. -/
def parseSized (overflowChecks : Bool) (buf : List UInt8) (request : List UInt8 → ParsedHttpRequest)
    (bodyStart length : Nat) : Except Abort ParseResult := do
  let totalLen ← add overflowChecks bodyStart length
  if buf.length < totalLen then pure .incomplete
  else
    let body ← slice buf bodyStart totalLen
    pure (.complete (request body) totalLen)

theorem tryParse_sized (bounded : buf.length ≤ maxSlice) (block : HeaderBlock buf headerEnd (some head))
    (plain : head.framing ≠ .chunked) : tryParseHttpRequest overflowChecks buf =
      parseSized overflowChecks buf head.request (headerEnd + 4) head.length := by
  obtain ⟨headers, parsed, unambiguous, length, isChunked⟩ :=
    @tryParse_accepted overflowChecks buf headerEnd head bounded block.found block.reads
  rw [parsed, parseBody, unambiguous, if_neg Bool.false_ne_true, if_neg (mt isChunked.mp plain), length]
  rfl

/-- A length that is added to the start of the body beyond a machine word ends in an abort, with the sum checked or
    wrapped around. -/
theorem parseSized_aborts {start length : Nat} {request : List UInt8 → ParsedHttpRequest} (bounded : buf.length ≤ maxSlice)
    (within : start ≤ buf.length) (small : length < 2 ^ 64) (large : 2 ^ 64 ≤ start + length) :
    ∃ abort, parseSized overflowChecks buf request start length = .error abort := by
  unfold maxSlice at bounded
  rw [parseSized, add, if_neg (by omega)]
  cases overflowChecks with
  | true => exact ⟨.overflow, rfl⟩
  | false =>
    have wrapped : (start + length) % 2 ^ 64 = start + length - 2 ^ 64 := by omega
    refine ⟨.outOfRange, ?_⟩
    simp only [Bool.false_eq_true, if_false, bind, Except.bind, wrapped]
    rw [if_neg (by omega), slice, if_neg (by omega)]

theorem head_length_lt (reads : headOf (buf.take headerEnd) = some (some head)) : head.length < 2 ^ 64 := by
  obtain ⟨parts, _, accepted⟩ := Option.map_eq_some_iff.mp reads
  obtain ⟨decided, framed, rfl⟩ := Option.map_eq_some_iff.mp accepted
  unfold Head.length
  cases decided with
  | contentLength length =>
    obtain ⟨_, filled, parsed⟩ := framingOf_eq_contentLength_iff.mp framed
    obtain ⟨value, _, same⟩ := List.exists_cons_of_ne_nil filled
    exact parseUnsigned_lt (by decide) (parsed value (by rw [same]; exact List.mem_cons_self))
  | chunked => exact (by decide : 0 < 2 ^ 64)
  | none => exact (by decide : 0 < 2 ^ 64)

theorem tryParse_head (bounded : buf.length ≤ maxSlice) (block : HeaderBlock buf headerEnd (some head)) :
    (∃ body length, head.Carries (buf.drop (headerEnd + 4)) body length ∧
        tryParseHttpRequest overflowChecks buf = .ok (.complete (head.request body) (headerEnd + 4 + length))) ∨
      (tryParseHttpRequest overflowChecks buf = .ok .incomplete ∧ headerEnd + 4 + head.length < 2 ^ 64 ∧
        ∀ body length, ¬ head.Carries (buf.drop (headerEnd + 4)) body length) ∨
      (2 ^ 64 ≤ headerEnd + 4 + head.length ∧ ∃ abort, tryParseHttpRequest overflowChecks buf = .error abort) := by
  have reached := block.reached
  by_cases chunked : head.framing = .chunked
  · rcases @tryParse_chunked overflowChecks buf headerEnd head bounded block chunked with complete | ⟨incomplete, none⟩
    · exact .inl complete
    · refine .inr (.inl ⟨incomplete, ?_, none⟩)
      unfold Head.length
      rw [chunked]
      unfold maxSlice at bounded
      simp only
      omega
  · rw [tryParse_sized bounded block chunked]
    by_cases large : 2 ^ 64 ≤ headerEnd + 4 + head.length
    · exact .inr (.inr ⟨large, parseSized_aborts bounded reached (head_length_lt block.reads) large⟩)
    · have sum : add overflowChecks (headerEnd + 4) head.length = .ok (headerEnd + 4 + head.length) := if_pos (by omega)
      rw [parseSized, sum]
      simp only [bind, Except.bind]
      by_cases short : buf.length < headerEnd + 4 + head.length
      · refine .inr (.inl ⟨if_pos short, by omega, ?_⟩)
        intro body length carries
        rw [Head.Carries, if_neg chunked, List.length_drop] at carries
        omega
      · left
        rw [if_neg short, slice, if_pos ⟨by omega, by omega⟩]
        refine ⟨(buf.drop (headerEnd + 4)).take head.length, head.length, ?_, ?_⟩
        · rw [Head.Carries, if_neg chunked, List.length_drop]
          exact ⟨rfl, by omega, rfl⟩
        · rw [List.drop_take, Nat.add_sub_cancel_left]
          rfl

/-- Every outcome of the parser, with what the buffer has in it. -/
theorem tryParse_cases (overflowChecks : Bool) (bounded : buf.length ≤ maxSlice) :
    (tryParseHttpRequest overflowChecks buf = .ok .incomplete ∧ ∀ headerEnd head, ¬ HeaderBlock buf headerEnd head) ∨
      (∃ headerEnd reason, HeaderBlock buf headerEnd none ∧
        tryParseHttpRequest overflowChecks buf = .ok (.invalid reason)) ∨
      ∃ headerEnd head, HeaderBlock buf headerEnd (some head) := by
  cases found : position (crlf ++ crlf) buf with
  | none =>
    refine .inl ⟨tryParse_open found, ?_⟩
    rintro headerEnd head ⟨there, _⟩
    rw [found] at there
    cases there
  | some headerEnd =>
    cases reads : headOf (buf.take headerEnd) with
    | none =>
      refine .inl ⟨tryParse_unreadable bounded found reads, ?_⟩
      rintro other head ⟨there, readable⟩
      rw [found, Option.some.injEq] at there
      rw [← there, reads] at readable
      cases readable
    | some head =>
      cases head with
      | none =>
        obtain ⟨reason, invalid⟩ := @tryParse_refused overflowChecks buf headerEnd bounded found reads
        exact .inr (.inl ⟨headerEnd, reason, ⟨found, reads⟩, invalid⟩)
      | some head => exact .inr (.inr ⟨headerEnd, head, found, reads⟩)

theorem tryParse_complete_iff {request : ParsedHttpRequest} {consumed : Nat} (overflowChecks : Bool)
    (bounded : buf.length ≤ maxSlice) : tryParseHttpRequest overflowChecks buf = .ok (.complete request consumed) ↔
      ∃ headerEnd head body length, HeaderBlock buf headerEnd (some head) ∧
        head.Carries (buf.drop (headerEnd + 4)) body length ∧ request = head.request body ∧
        consumed = headerEnd + 4 + length := by
  constructor
  · intro complete
    rcases tryParse_cases overflowChecks bounded with ⟨parsed, _⟩ | ⟨_, _, _, parsed⟩ | ⟨headerEnd, head, block⟩
    · rw [complete] at parsed
      cases parsed
    · rw [complete] at parsed
      cases parsed
    · rcases @tryParse_head overflowChecks buf headerEnd head bounded block with
        ⟨body, length, carries, parsed⟩ | ⟨parsed, _⟩ | ⟨_, abort, parsed⟩
      · rw [complete] at parsed
        cases parsed
        exact ⟨headerEnd, head, body, length, block, carries, rfl, rfl⟩
      · rw [complete] at parsed
        cases parsed
      · rw [complete] at parsed
        cases parsed
  · rintro ⟨headerEnd, head, body, length, block, carries, rfl, rfl⟩
    rcases @tryParse_head overflowChecks buf headerEnd head bounded block with
      ⟨other, otherLength, carriesToo, parsed⟩ | ⟨_, _, none⟩ | ⟨large, _⟩
    · obtain ⟨rfl, rfl⟩ := carries.unique carriesToo
      exact parsed
    · exact absurd carries (none body length)
    · have reached := block.reached
      have fits := carries.head_length_le
      rw [List.length_drop] at fits
      unfold maxSlice at bounded
      omega

theorem tryParse_invalid_iff (overflowChecks : Bool) (bounded : buf.length ≤ maxSlice) :
    (∃ reason, tryParseHttpRequest overflowChecks buf = .ok (.invalid reason)) ↔
      ∃ headerEnd, HeaderBlock buf headerEnd none := by
  constructor
  · rintro ⟨reason, invalid⟩
    rcases tryParse_cases overflowChecks bounded with ⟨parsed, _⟩ | ⟨headerEnd, _, block, _⟩ | ⟨headerEnd, head, block⟩
    · rw [invalid] at parsed
      cases parsed
    · exact ⟨headerEnd, block⟩
    · rcases @tryParse_head overflowChecks buf headerEnd head bounded block with
        ⟨_, _, _, parsed⟩ | ⟨parsed, _⟩ | ⟨_, _, parsed⟩ <;> (rw [invalid] at parsed; cases parsed)
  · rintro ⟨headerEnd, block⟩
    exact tryParse_refused bounded block.found block.reads

/-- The parser aborts exactly where the length of the body leads out of the machine word. -/
theorem tryParse_total_iff (overflowChecks : Bool) (buf : List UInt8) (bounded : buf.length ≤ maxSlice) :
    (∃ result, tryParseHttpRequest overflowChecks buf = .ok result) ↔
      ¬ ∃ headerEnd head, HeaderBlock buf headerEnd (some head) ∧ 2 ^ 64 ≤ headerEnd + 4 + head.length := by
  rcases tryParse_cases overflowChecks bounded with ⟨parsed, open_end⟩ | ⟨headerEnd, reason, block, parsed⟩ |
    ⟨headerEnd, head, block⟩
  · refine iff_of_true ⟨_, parsed⟩ ?_
    rintro ⟨headerEnd, head, block, _⟩
    exact open_end headerEnd _ block
  · refine iff_of_true ⟨_, parsed⟩ ?_
    rintro ⟨other, head, blockToo, _⟩
    cases (block.unique blockToo).2
  · have only : (∃ headerEnd head, HeaderBlock buf headerEnd (some head) ∧ 2 ^ 64 ≤ headerEnd + 4 + head.length) ↔
        2 ^ 64 ≤ headerEnd + 4 + head.length := by
      constructor
      · rintro ⟨other, headToo, blockToo, large⟩
        obtain ⟨rfl, same⟩ := block.unique blockToo
        cases same
        exact large
      · exact fun large => ⟨headerEnd, head, block, large⟩
    rw [only]
    rcases @tryParse_head overflowChecks buf headerEnd head bounded block with
      ⟨body, length, carries, parsed⟩ | ⟨parsed, small, _⟩ | ⟨large, abort, parsed⟩
    · refine iff_of_true ⟨_, parsed⟩ ?_
      have reached := block.reached
      have fits := carries.head_length_le
      rw [List.length_drop] at fits
      unfold maxSlice at bounded
      omega
    · exact iff_of_true ⟨_, parsed⟩ (by omega)
    · refine iff_of_false ?_ (not_not_intro large)
      rintro ⟨result, impossible⟩
      rw [parsed] at impossible
      cases impossible

def hugeRequest : List UInt8 :=
  utf8Encode "POST /v1/chat HTTP/1.1\r\nContent-Length: 18446744073709551615\r\n\r\n".toList

/-- The start of the body and the greatest length overflow; where the sum wraps around, the slice is out of range. -/
theorem hugeRequest_aborts : tryParseHttpRequest true hugeRequest = .error .overflow ∧
    tryParseHttpRequest false hugeRequest = .error .outOfRange := by
  decide +kernel

def smallRequest : List UInt8 := utf8Encode "POST /v1/chat HTTP/1.1\r\nContent-Length: 2\r\n\r\nhi".toList

theorem smallRequest_parses : smallRequest.length ≤ maxSlice ∧
    ¬ ∃ headerEnd head, HeaderBlock smallRequest headerEnd (some head) ∧ 2 ^ 64 ≤ headerEnd + 4 + head.length := by
  have bounded : smallRequest.length ≤ maxSlice := by decide +kernel
  refine ⟨bounded, (tryParse_total_iff true smallRequest bounded).mp ?_⟩
  exact ⟨.complete ⟨"POST".toList, "/v1/chat".toList, [("Content-Length".toList, "2".toList)], utf8Encode "hi".toList⟩
    smallRequest.length, by decide +kernel⟩

/-- What is parsed out of a buffer, is parsed out of every longer one. -/
theorem tryParse_append (overflowChecks : Bool) (buf more : List UInt8) (bounded : (buf ++ more).length ≤ maxSlice) :
    (∀ request consumed, tryParseHttpRequest overflowChecks buf = .ok (.complete request consumed) →
        consumed ≤ buf.length ∧ tryParseHttpRequest overflowChecks (buf ++ more) = .ok (.complete request consumed)) ∧
      ((∃ reason, tryParseHttpRequest overflowChecks buf = .ok (.invalid reason)) →
        ∃ reason, tryParseHttpRequest overflowChecks (buf ++ more) = .ok (.invalid reason)) := by
  have shorter : buf.length ≤ maxSlice := by
    rw [List.length_append] at bounded
    omega
  constructor
  · intro request consumed complete
    obtain ⟨headerEnd, head, body, length, block, carries, rfl, rfl⟩ :=
      (tryParse_complete_iff overflowChecks shorter).mp complete
    have reached := block.reached
    constructor
    · have within := carries.length_le
      rw [List.length_drop] at within
      omega
    · refine (tryParse_complete_iff overflowChecks bounded).mpr ⟨headerEnd, head, body, length, block.append more, ?_, rfl, rfl⟩
      rw [List.drop_append_of_le_length reached]
      exact carries.append more
  · rw [tryParse_invalid_iff overflowChecks shorter, tryParse_invalid_iff overflowChecks bounded]
    rintro ⟨headerEnd, block⟩
    exact ⟨headerEnd, block.append more⟩

def chunkedRequest : List UInt8 :=
  utf8Encode "POST /v1/chat HTTP/1.1\r\nTransfer-Encoding: chunked\r\n\r\n2\r\nhi\r\n0\r\n\r\n".toList

theorem chunkedRequest_append : ∃ request, tryParseHttpRequest true chunkedRequest =
      .ok (.complete request chunkedRequest.length) ∧
    tryParseHttpRequest true (chunkedRequest ++ smallRequest) = .ok (.complete request chunkedRequest.length) := by
  have parsed : tryParseHttpRequest true chunkedRequest = .ok (.complete ⟨"POST".toList, "/v1/chat".toList,
      [("Transfer-Encoding".toList, "chunked".toList)], utf8Encode "hi".toList⟩ chunkedRequest.length) := by
    decide +kernel
  exact ⟨_, parsed, ((tryParse_append true chunkedRequest smallRequest (by decide +kernel)).1 _ _ parsed).2⟩

end Parse

end OpenShell.Sandbox.Inference
