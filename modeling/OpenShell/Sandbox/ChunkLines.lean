import OpenShell.Sandbox.Chunked

namespace OpenShell.Sandbox

open Text Streams

/-! Chunked bodies with their size lines and the bytes they carry. -/

/-- A whole chunked body, with its size lines and with what it decodes to. -/
inductive ChunkedAs : List (List UInt8) → List UInt8 → List UInt8 → Prop
  | last {line trailers : List UInt8} (isLine : IsLine line) (size : chunkSize line = .ok 0)
      (behind : Trailers trailers) : ChunkedAs [line] [] (line ++ crlf ++ trailers)
  | chunk {line payload decoded rest : List UInt8} {lines : List (List UInt8)} (isLine : IsLine line)
      (size : chunkSize line = .ok payload.length) (filled : payload ≠ []) (behind : ChunkedAs lines decoded rest) :
      ChunkedAs (line :: lines) (payload ++ decoded) (line ++ crlf ++ (payload ++ crlf ++ rest))

/-- The token of a size line that is parsed as the size. -/
def sizeToken (line : List UInt8) : Option (List Char) :=
  (utf8Decode line).map fun text => trim ((split ';' text).headD [])

variable {lines : List (List UInt8)} {line decoded body rest : List UInt8}

theorem chunkSize_eq_ok_iff {size : Nat} : chunkSize line = .ok size ↔
    ∃ token, sizeToken line = some token ∧ parseUnsigned 16 (2 ^ 64) token = some size := by
  unfold chunkSize sizeToken
  cases utf8Decode line with
  | none => simp
  | some text =>
    simp only [Option.map_some, Option.some.injEq, exists_eq_left']
    cases parseUnsigned 16 (2 ^ 64) (trim ((split ';' text).headD [])) <;> simp

theorem chunkedBody_iff : ChunkedBody body ↔ ∃ lines decoded, ChunkedAs lines decoded body := by
  constructor
  · intro chunked
    induction chunked with
    | last isLine size behind => exact ⟨_, _, .last isLine size behind⟩
    | chunk isLine size filled _ ih =>
      obtain ⟨lines, decoded, behind⟩ := ih
      exact ⟨_, _, .chunk isLine size filled behind⟩
  · rintro ⟨lines, decoded, chunked⟩
    induction chunked with
    | last isLine size behind => exact .last isLine size behind
    | chunk isLine size filled _ ih => exact .chunk isLine size filled ih

theorem ChunkedAs.chunkedBody (chunked : ChunkedAs lines decoded body) : ChunkedBody body :=
  chunkedBody_iff.mpr ⟨lines, decoded, chunked⟩

theorem ChunkedAs.sized (chunked : ChunkedAs lines decoded body) :
    ∀ line ∈ lines, ∃ size, chunkSize line = .ok size := by
  induction chunked with
  | last _ size _ =>
    intro line member
    rw [List.mem_singleton.mp member]
    exact ⟨0, size⟩
  | chunk _ size _ _ ih =>
    intro line member
    rcases List.mem_cons.mp member with rfl | later
    · exact ⟨_, size⟩
    · exact ih line later

/-- The size lines and the decoded bytes are shorter than the body. -/
theorem ChunkedAs.length_le (chunked : ChunkedAs lines decoded body) :
    lines.length < body.length ∧ decoded.length < body.length := by
  induction chunked with
  | last isLine size behind =>
    rw [List.length_append, List.length_append, length_crlf, List.length_singleton, List.length_nil]
    omega
  | chunk isLine size filled behind ih =>
    simp only [List.length_append, length_crlf, List.length_cons]
    omega

/-! What stands at the start of bytes that begin with trailers or with a chunked body. -/

theorem Trailers.start {trailers : List UInt8} (complete : Trailers trailers) (starts : trailers <+: rest) :
    ∃ offset, position crlf rest = some offset ∧ (offset = 0 ∧ trailers.length = 2 ∨
      offset ≠ 0 ∧ ∃ behind, Trailers behind ∧ behind <+: rest.drop (offset + 2) ∧
        trailers.length = offset + 2 + behind.length) := by
  obtain ⟨more, rfl⟩ := starts
  cases complete with
  | last =>
    have found := IsLine.position (show IsLine [] from rfl) more
    exact ⟨0, found, .inl ⟨rfl, rfl⟩⟩
  | @line line behind isLine filled later =>
    have found := isLine.position (behind ++ more)
    rw [← List.append_assoc] at found
    have dropped : (line ++ crlf ++ behind ++ more).drop (line.length + 2) = behind ++ more := by
      rw [List.append_assoc]
      exact List.drop_left' (by rw [List.length_append, length_crlf])
    refine ⟨line.length, found, .inr ⟨mt List.length_eq_zero_iff.mp filled, behind, later, ?_, ?_⟩⟩
    · rw [dropped]
      exact List.prefix_append _ _
    · simp only [List.length_append, length_crlf]

theorem line_prefix {offset : Nat} (found : position crlf rest = some offset) {behind : List UInt8}
    (starts : behind <+: rest.drop (offset + 2)) :
    IsLine (rest.take offset) ∧ rest.take offset ++ crlf ++ behind <+: rest ∧
      (rest.take offset ++ crlf ++ behind).length = offset + 2 + behind.length := by
  obtain ⟨isLine, whole⟩ := isLine_of_position found
  have length : (rest.take offset).length = offset := by
    have reached := position_reaches found
    rw [List.length_take]
    omega
  refine ⟨isLine, ?_, ?_⟩
  · have longer : rest.take offset ++ crlf ++ behind <+: rest.take offset ++ crlf ++ rest.drop (offset + 2) :=
      (List.prefix_append_right_inj _).mpr starts
    rw [← whole] at longer
    exact longer
  · rw [List.length_append, List.length_append, length, length_crlf]

/-- What stands at the start of bytes that begin with a chunked body. -/
theorem ChunkedAs.start (chunked : ChunkedAs lines decoded body) (starts : body <+: rest) :
    ∃ offset, position crlf rest = some offset ∧
      ((chunkSize (rest.take offset) = .ok 0 ∧ lines = [rest.take offset] ∧ decoded = [] ∧
          ∃ trailers, Trailers trailers ∧ trailers <+: rest.drop (offset + 2) ∧ body.length = offset + 2 + trailers.length) ∨
        ∃ payload linesBehind decodedBehind bodyBehind, payload ≠ [] ∧ chunkSize (rest.take offset) = .ok payload.length ∧
          lines = rest.take offset :: linesBehind ∧ decoded = payload ++ decodedBehind ∧
          payload ++ crlf <+: rest.drop (offset + 2) ∧ ChunkedAs linesBehind decodedBehind bodyBehind ∧
          bodyBehind <+: rest.drop (offset + 2 + (payload.length + 2)) ∧
          body.length = offset + 2 + (payload.length + 2) + bodyBehind.length) := by
  cases chunked with
  | @last line trailers isLine size behind =>
    obtain ⟨more, rfl⟩ := starts
    have found := isLine.position (trailers ++ more)
    rw [← List.append_assoc] at found
    have taken : (line ++ crlf ++ trailers ++ more).take line.length = line := by
      rw [List.append_assoc, List.append_assoc, List.take_left]
    have dropped : (line ++ crlf ++ trailers ++ more).drop (line.length + 2) = trailers ++ more := by
      rw [List.append_assoc]
      exact List.drop_left' (by rw [List.length_append, length_crlf])
    refine ⟨line.length, found, .inl ?_⟩
    rw [taken, dropped]
    refine ⟨size, rfl, rfl, trailers, behind, List.prefix_append _ _, ?_⟩
    simp only [List.length_append, length_crlf]
  | @chunk line payload decodedBehind bodyBehind linesBehind isLine size filled behind =>
    obtain ⟨more, rfl⟩ := starts
    have found := isLine.position (payload ++ crlf ++ bodyBehind ++ more)
    rw [← List.append_assoc] at found
    have taken : (line ++ crlf ++ (payload ++ crlf ++ bodyBehind) ++ more).take line.length = line := by
      rw [List.append_assoc, List.append_assoc, List.take_left]
    have dropped : (line ++ crlf ++ (payload ++ crlf ++ bodyBehind) ++ more).drop (line.length + 2) =
        payload ++ crlf ++ (bodyBehind ++ more) := by
      rw [List.append_assoc, List.append_assoc (payload ++ crlf)]
      exact List.drop_left' (by rw [List.length_append, length_crlf])
    have droppedFurther : (line ++ crlf ++ (payload ++ crlf ++ bodyBehind) ++ more).drop
        (line.length + 2 + (payload.length + 2)) = bodyBehind ++ more := by
      rw [← List.drop_drop, dropped]
      exact List.drop_left' (by rw [List.length_append, length_crlf])
    refine ⟨line.length, found, .inr ⟨payload, linesBehind, decodedBehind, bodyBehind, filled, ?_⟩⟩
    rw [taken, dropped, droppedFurther]
    refine ⟨size, rfl, rfl, List.prefix_append _ _, behind, List.prefix_append _ _, ?_⟩
    simp only [List.length_append, length_crlf]
    omega

/-- Bytes begin with one chunked body at most. -/
theorem ChunkedAs.unique {others : List (List UInt8)} {otherDecoded other behind : List UInt8}
    (chunked : ChunkedAs lines decoded body) (chunkedToo : ChunkedAs others otherDecoded other)
    (same : body ++ rest = other ++ behind) : lines = others ∧ decoded = otherDecoded ∧ body = other := by
  induction chunked generalizing others otherDecoded other with
  | last isLine size trailing =>
    cases chunkedToo with
    | last isOther _ trailingToo =>
      simp only [List.append_assoc] at same
      obtain ⟨first, later⟩ := isLine.unique isOther same
      rw [first, trailing.unique trailingToo later]
      exact ⟨rfl, rfl, rfl⟩
    | chunk isOther sizeToo filled _ =>
      simp only [List.append_assoc] at same
      obtain ⟨first, _⟩ := isLine.unique isOther same
      rw [first, sizeToo, Except.ok.injEq, List.length_eq_zero_iff] at size
      exact absurd size filled
  | chunk isLine size filled _ ih =>
    cases chunkedToo with
    | last isOther sizeToo _ =>
      simp only [List.append_assoc] at same
      obtain ⟨first, _⟩ := isLine.unique isOther same
      rw [first, sizeToo, Except.ok.injEq, eq_comm, List.length_eq_zero_iff] at size
      exact absurd size filled
    | chunk isOther sizeToo _ behindToo =>
      simp only [List.append_assoc] at same
      obtain ⟨first, later⟩ := isLine.unique isOther same
      rw [first, sizeToo, Except.ok.injEq] at size
      obtain ⟨payloads, further⟩ := List.append_inj later size.symm
      obtain ⟨linesBehind, decodedBehind, bodies⟩ := ih behindToo (List.append_cancel_left further)
      rw [first, payloads, linesBehind, decodedBehind, bodies]
      exact ⟨rfl, rfl, rfl⟩

theorem ChunkedAs.unique_of_prefix {others : List (List UInt8)} {otherDecoded other : List UInt8}
    (chunked : ChunkedAs lines decoded body) (chunkedToo : ChunkedAs others otherDecoded other) (starts : body <+: rest)
    (startsToo : other <+: rest) : lines = others ∧ decoded = otherDecoded ∧ body = other := by
  obtain ⟨behind, whole⟩ := starts
  obtain ⟨behindToo, wholeToo⟩ := startsToo
  exact chunked.unique chunkedToo (whole.trans wholeToo.symm)

theorem Trailers.unique_of_prefix {trailers others : List UInt8} (first : Trailers trailers) (second : Trailers others)
    (starts : trailers <+: rest) (startsToo : others <+: rest) : trailers = others := by
  obtain ⟨behind, whole⟩ := starts
  obtain ⟨behindToo, wholeToo⟩ := startsToo
  exact first.unique second (whole.trans wholeToo.symm)

end OpenShell.Sandbox
