import OpenShell.Sandbox.Bodies

namespace OpenShell.Sandbox

open Text Streams

/-! Where a chunked body ends, and that its relay stops with the read that brings its last byte. -/

def IsLine (line : List UInt8) : Prop := position crlf (line ++ crlf) = some line.length

inductive Trailers : List UInt8 → Prop
  | last : Trailers crlf
  | line {line rest : List UInt8} (isLine : IsLine line) (filled : line ≠ []) (behind : Trailers rest) :
      Trailers (line ++ crlf ++ rest)

/-- A whole chunked body: chunks, the chunk of size zero, and the trailers with the empty line. -/
inductive ChunkedBody : List UInt8 → Prop
  | last {line trailers : List UInt8} (isLine : IsLine line) (size : chunkSize line = .ok 0)
      (behind : Trailers trailers) : ChunkedBody (line ++ crlf ++ trailers)
  | chunk {line payload rest : List UInt8} (isLine : IsLine line) (size : chunkSize line = .ok payload.length)
      (filled : payload ≠ []) (behind : ChunkedBody rest) :
      ChunkedBody (line ++ crlf ++ (payload ++ crlf ++ rest))

theorem length_crlf : crlf.length = 2 := rfl

theorem relayBufSize_pos : 0 < relayBufSize := by decide

theorem IsLine.position {line : List UInt8} (isLine : IsLine line) (rest : List UInt8) :
    position crlf (line ++ crlf ++ rest) = some line.length := by
  obtain ⟨there, first⟩ := position_eq_some_iff.mp isLine
  refine position_eq_some_iff.mpr ⟨?_, fun earlier bound here => first earlier bound ?_⟩
  · rw [List.append_assoc, List.drop_left]
    exact List.prefix_append _ _
  · have part : (line ++ crlf).drop earlier <+: (line ++ crlf ++ rest).drop earlier :=
      List.IsPrefix.drop (List.prefix_append _ _) earlier
    apply List.prefix_of_prefix_length_le here part
    rw [List.length_drop, List.length_append]
    omega

theorem isLine_of_position {bytes : List UInt8} {lineEnd : Nat} (found : position crlf bytes = some lineEnd) :
    IsLine (bytes.take lineEnd) ∧ bytes = bytes.take lineEnd ++ crlf ++ bytes.drop (lineEnd + 2) := by
  obtain ⟨⟨rest, split⟩, _⟩ := position_eq_some_iff.mp found
  have reached : lineEnd ≤ bytes.length := by
    by_contra beyond
    rw [List.drop_of_length_le (by omega)] at split
    cases split
  have behind : bytes.drop (lineEnd + 2) = rest := by
    rw [← List.drop_drop, ← split]
    rfl
  have whole : bytes.take lineEnd ++ crlf ++ rest = bytes := by
    rw [List.append_assoc, split, List.take_append_drop]
  have length : (bytes.take lineEnd).length = lineEnd := List.length_take_of_le reached
  refine ⟨?_, by rw [behind, whole]⟩
  unfold IsLine
  rw [length]
  apply position_of_prefix found
  · exact ⟨rest, whole⟩
  · rw [List.length_append, length]

/-! A text starts with at most one whole body. -/

theorem IsLine.unique {line other rest behind : List UInt8} (isLine : IsLine line) (isOther : IsLine other)
    (same : line ++ (crlf ++ rest) = other ++ (crlf ++ behind)) : line = other ∧ rest = behind := by
  have found := isLine.position rest
  rw [List.append_assoc, same, ← List.append_assoc, isOther.position, Option.some.injEq] at found
  obtain ⟨lines, later⟩ := List.append_inj same found.symm
  exact ⟨lines, List.append_cancel_left later⟩

theorem Trailers.unique {body other rest behind : List UInt8} (trailers : Trailers body)
    (others : Trailers other) (same : body ++ rest = other ++ behind) : body = other := by
  have empty : IsLine [] := rfl
  induction trailers generalizing other with
  | last =>
    cases others with
    | last => rfl
    | line isLine filled more =>
      simp only [List.append_assoc] at same
      exact absurd (empty.unique isLine same).1.symm filled
  | line isLine filled more ih =>
    cases others with
    | last =>
      simp only [List.append_assoc] at same
      exact absurd (isLine.unique empty same).1 filled
    | line isOther _ moreOther =>
      simp only [List.append_assoc] at same
      obtain ⟨lines, later⟩ := isLine.unique isOther same
      rw [lines, ih moreOther later]

theorem ChunkedBody.unique {body other rest behind : List UInt8} (chunked : ChunkedBody body)
    (others : ChunkedBody other) (same : body ++ rest = other ++ behind) : body = other := by
  induction chunked generalizing other with
  | last isLine size trailing =>
    cases others with
    | last isOther _ trailingOther =>
      simp only [List.append_assoc] at same
      obtain ⟨lines, later⟩ := isLine.unique isOther same
      rw [lines, trailing.unique trailingOther later]
    | chunk isOther sizeOther filled _ =>
      simp only [List.append_assoc] at same
      obtain ⟨lines, _⟩ := isLine.unique isOther same
      rw [lines, sizeOther, Except.ok.injEq, List.length_eq_zero_iff] at size
      exact absurd size filled
  | chunk isLine size filled more ih =>
    cases others with
    | last isOther sizeOther _ =>
      simp only [List.append_assoc] at same
      obtain ⟨lines, _⟩ := isLine.unique isOther same
      rw [lines, sizeOther, Except.ok.injEq, eq_comm, List.length_eq_zero_iff] at size
      exact absurd size filled
    | chunk isOther sizeOther _ moreOther =>
      simp only [List.append_assoc] at same
      obtain ⟨lines, later⟩ := isLine.unique isOther same
      rw [lines, sizeOther, Except.ok.injEq] at size
      obtain ⟨payloads, chunks⟩ := List.append_inj later size.symm
      rw [lines, payloads, ih moreOther (List.append_cancel_left chunks)]

/-! What a parser of a chunked body has before it. -/

namespace Cursor

def rest (cursor : Cursor) : List UInt8 := cursor.parseBuf.drop cursor.pos ++ cursor.reader.bytes

def held (cursor : Cursor) : Nat := cursor.parseBuf.length - cursor.pos

structure Valid (cursor : Cursor) : Prop where
  within : cursor.pos ≤ cursor.parseBuf.length
  bounded : cursor.parseBuf.length + cursor.reader.bytes.length < 2 ^ 64

/-- The next `count` bytes are parsed, and for them no more is read than needed. -/
structure Takes (cursor : Cursor) (count : Nat) (taken : List UInt8) (next : Cursor) : Prop where
  reads : ByteStream.ReadsFor relayBufSize (count - cursor.held) cursor.reader taken next.reader
  kept : cursor.held + taken.length = count + next.held
  rest_eq : next.rest = cursor.rest.drop count
  valid : next.Valid

variable {cursor next last : Cursor} {count more : Nat} {taken further : List UInt8}

theorem Takes.trans (first : cursor.Takes count taken next) (second : next.Takes more further last) :
    cursor.Takes (count + more) (taken ++ further) last where
  reads := by
    have kept := first.kept
    have remaining : more - next.held = count + more - cursor.held - taken.length := by omega
    exact (first.reads.mono (by omega)).trans (remaining ▸ second.reads)
  kept := by
    have kept := first.kept
    have kept_later := second.kept
    rw [List.length_append]
    omega
  rest_eq := by rw [second.rest_eq, first.rest_eq, List.drop_drop]
  valid := second.valid

theorem rest_of_reads {reader : ByteStream} (valid : cursor.Valid)
    (reads : ByteStream.Reads relayBufSize cursor.reader taken reader)
    (reached : cursor.pos + count ≤ (cursor.parseBuf ++ taken).length) :
    (cursor.parseBuf ++ taken).drop (cursor.pos + count) ++ reader.bytes = cursor.rest.drop count := by
  have within := valid.within
  unfold rest
  rw [← List.drop_append_of_le_length reached, reads.bytes_eq, ← List.drop_append_of_le_length within,
    List.drop_drop, List.append_assoc]

theorem rest_split {reader : ByteStream} (valid : cursor.Valid)
    (reads : ByteStream.Reads relayBufSize cursor.reader taken reader) :
    cursor.rest = (cursor.parseBuf ++ taken).drop cursor.pos ++ reader.bytes := by
  have reached : cursor.pos + 0 ≤ (cursor.parseBuf ++ taken).length := by
    rw [List.length_append]
    exact Nat.le_add_right_of_le valid.within
  exact (rest_of_reads valid reads reached).symm

theorem valid_of_reads {reader : ByteStream} (valid : cursor.Valid)
    (reads : ByteStream.Reads relayBufSize cursor.reader taken reader) {pos : Nat}
    (reached : pos ≤ (cursor.parseBuf ++ taken).length) : Valid ⟨cursor.parseBuf ++ taken, pos, reader⟩ where
  within := reached
  bounded := by
    have bounded := valid.bounded
    rw [reads.bytes_eq, List.length_append] at bounded
    simp only [List.length_append]
    omega

theorem takes_of_reads {reader : ByteStream} (valid : cursor.Valid)
    (reads : ByteStream.ReadsFor relayBufSize (cursor.pos + count - cursor.parseBuf.length) cursor.reader taken
      reader) (reached : cursor.pos + count ≤ (cursor.parseBuf ++ taken).length) :
    cursor.Takes count taken ⟨cursor.parseBuf ++ taken, cursor.pos + count, reader⟩ where
  reads := by
    have within := valid.within
    have same : cursor.pos + count - cursor.parseBuf.length = count - cursor.held := by
      unfold held
      omega
    exact same ▸ reads
  kept := by
    have within := valid.within
    simp only [held, List.length_append] at reached ⊢
    omega
  rest_eq := rest_of_reads valid reads.reads reached
  valid := valid_of_reads valid reads.reads reached

theorem takes_drain (valid : cursor.Valid) : cursor.Takes 0 [] cursor.drain := by
  by_cases full : relayBufSize * 4 < cursor.pos
  · rw [drain, if_pos full]
    refine ⟨.none, ?_, rfl, ⟨Nat.zero_le _, ?_⟩⟩
    · simp only [held, List.length_drop, List.length_nil, Nat.add_zero, Nat.sub_zero, Nat.zero_add]
    · have bounded := valid.bounded
      simp only [List.length_drop]
      omega
  · rw [drain, if_neg full]
    exact ⟨.none, by rw [List.length_nil]; omega, rfl, valid⟩

/-! Lines and payloads. -/

theorem take_of_starts {line behind part : List UInt8} (starts : part <+: line ++ behind)
    (whole : line.length ≤ part.length) : part.take line.length = line := by
  obtain ⟨missing, split⟩ := starts
  have cut := congrArg (List.take line.length) split
  rw [List.take_append_of_le_length whole, List.take_left] at cut
  exact cut

theorem part_drop (valid : cursor.Valid) {part : List UInt8}
    (starts : part <+: cursor.parseBuf ++ cursor.reader.bytes) : part.drop cursor.pos <+: cursor.rest := by
  unfold rest
  rw [← List.drop_append_of_le_length valid.within]
  exact List.IsPrefix.drop starts cursor.pos

theorem readLine_ok {line behind : List UInt8} (closed : String) (valid : cursor.Valid) (isLine : IsLine line)
    (starts : cursor.rest = line ++ crlf ++ behind) :
    ∃ taken next, cursor.readLine closed = (.ok line, taken, next) ∧ cursor.Takes (line.length + 2) taken next := by
  have found : position crlf cursor.rest = some line.length := by
    rw [starts]
    exact isLine.position behind
  have at_needed : ByteStream.ReadyAt (findCrlf · cursor.pos) (cursor.parseBuf ++ cursor.reader.bytes)
      (cursor.pos + (line.length + 2)) (cursor.pos + line.length) := by
    refine ⟨fun part shown short => ?_, fun part shown whole => ?_⟩
    · have missing : position crlf (part.drop cursor.pos) = none := by
        apply position_of_short (by decide) found (part_drop valid shown)
        rw [List.length_drop, length_crlf]
        omega
      simp only [findCrlf, missing, Option.map_none]
    · have there : position crlf (part.drop cursor.pos) = some line.length := by
        apply position_of_prefix found (part_drop valid shown)
        rw [List.length_drop, length_crlf]
        omega
      simp only [findCrlf, there, Option.map_some]
  have present : cursor.pos + (line.length + 2) ≤ (cursor.parseBuf ++ cursor.reader.bytes).length := by
    have within := valid.within
    have length := congrArg List.length starts
    simp only [rest, List.length_append, List.length_drop, length_crlf] at length ⊢
    omega
  obtain ⟨taken, reader, ran, reads, reached⟩ := ByteStream.gather_ready relayBufSize_pos at_needed present
  refine ⟨taken, _, ?_, takes_of_reads valid reads reached⟩
  have line_eq : ((cursor.parseBuf ++ taken).take (cursor.pos + line.length)).drop cursor.pos = line := by
    rw [List.drop_take, Nat.add_sub_cancel_left]
    have shown : cursor.parseBuf ++ taken <+: cursor.parseBuf ++ cursor.reader.bytes := by
      rw [reads.reads.bytes_eq, ← List.append_assoc]
      exact List.prefix_append _ _
    have drop_shown := part_drop valid shown
    rw [starts, List.append_assoc] at drop_shown
    apply take_of_starts drop_shown
    rw [List.length_drop]
    omega
  simp only [readLine, ran, line_eq, Nat.add_assoc]

theorem readLine_reads {closed : String} {result : Except String (List UInt8)}
    (ran : cursor.readLine closed = (result, taken, next)) :
    ByteStream.Reads relayBufSize cursor.reader taken next.reader := by
  unfold readLine at ran
  split at ran <;> (cases ran; exact ByteStream.gather_reads (by assumption))

theorem readLine_line {closed : String} {line : List UInt8} (valid : cursor.Valid)
    (ran : cursor.readLine closed = (.ok line, taken, next)) :
    IsLine line ∧ cursor.rest = line ++ crlf ++ next.rest ∧ next.Valid := by
  unfold readLine at ran
  split at ran
  · rename_i lineEnd block reader gathered
    cases ran
    have reads := ByteStream.gather_reads gathered
    have found := ByteStream.gather_found gathered
    obtain ⟨offset, there, rfl⟩ := Option.map_eq_some_iff.mp found
    obtain ⟨isLine, split⟩ := isLine_of_position there
    have reached : cursor.pos + (offset + 2) ≤ (cursor.parseBuf ++ taken).length := by
      have within := valid.within
      have length := congrArg List.length split
      simp only [List.length_append, List.length_drop, List.length_take, length_crlf] at length ⊢
      omega
    rw [List.drop_take, Nat.add_sub_cancel_left]
    refine ⟨isLine, ?_, valid_of_reads valid reads (Nat.add_assoc _ _ _ ▸ reached)⟩
    rw [rest_split valid reads, rest, Nat.add_assoc, ← List.drop_drop, ← List.append_assoc, ← split]
  · cases ran
  · cases ran

theorem readPayload_ok {payload behind : List UInt8} (valid : cursor.Valid)
    (starts : cursor.rest = payload ++ crlf ++ behind) :
    ∃ taken next, cursor.readPayload payload.length = (.ok (), taken, next) ∧
      cursor.Takes (payload.length + 2) taken next := by
  have present : cursor.pos + (payload.length + 2) ≤ (cursor.parseBuf ++ cursor.reader.bytes).length := by
    have within := valid.within
    have length := congrArg List.length starts
    simp only [rest, List.length_append, List.length_drop, length_crlf] at length ⊢
    omega
  have in_range : ¬ 2 ^ 64 ≤ cursor.pos + payload.length + 2 := by
    have bounded := valid.bounded
    rw [List.length_append] at present
    omega
  have at_needed : ByteStream.ReadyAt
      (fun buf : List UInt8 => if buf.length < cursor.pos + payload.length + 2 then none else some ())
      (cursor.parseBuf ++ cursor.reader.bytes) (cursor.pos + (payload.length + 2)) () :=
    ⟨fun part _ short => if_pos (by omega), fun part _ whole => if_neg (by omega)⟩
  obtain ⟨taken, reader, ran, reads, reached⟩ := ByteStream.gather_ready relayBufSize_pos at_needed present
  refine ⟨taken, _, ?_, takes_of_reads valid reads reached⟩
  have ends : ((cursor.parseBuf ++ taken).take (cursor.pos + payload.length + 2)).drop
      (cursor.pos + payload.length) = crlf := by
    have shown : cursor.parseBuf ++ taken <+: cursor.parseBuf ++ cursor.reader.bytes := by
      rw [reads.reads.bytes_eq, ← List.append_assoc]
      exact List.prefix_append _ _
    have drop_shown := List.IsPrefix.drop (part_drop valid shown) payload.length
    rw [starts, List.append_assoc, List.drop_left, List.drop_drop] at drop_shown
    rw [List.drop_take, Nat.add_sub_cancel_left]
    apply take_of_starts drop_shown
    rw [List.length_drop, length_crlf]
    omega
  simp only [readPayload, if_neg in_range, ran, ends, ne_eq, not_true_eq_false, if_false]
  rfl

theorem readPayload_reads {size : Nat} {result : Except String Unit}
    (ran : cursor.readPayload size = (result, taken, next)) :
    ByteStream.Reads relayBufSize cursor.reader taken next.reader := by
  unfold readPayload at ran
  simp only at ran
  split at ran
  · cases ran
    exact .none
  · split at ran
    · split at ran <;> (cases ran; exact ByteStream.gather_reads (by assumption))
    · cases ran
      exact ByteStream.gather_reads (by assumption)
    · cases ran
      exact ByteStream.gather_reads (by assumption)

theorem drop_payload {bytes : List UInt8} {pos size : Nat} (ends : (bytes.drop (pos + size)).take 2 = crlf) :
    bytes.drop pos = (bytes.drop pos).take size ++ crlf ++ bytes.drop (pos + size + 2) := by
  have behind : (bytes.drop (pos + size)).drop 2 = bytes.drop (pos + size + 2) := List.drop_drop
  have payload : (bytes.drop pos).drop size = bytes.drop (pos + size) := List.drop_drop
  rw [List.append_assoc, ← ends, ← behind, List.take_append_drop, ← payload, List.take_append_drop]

theorem readPayload_payload {size : Nat} (valid : cursor.Valid)
    (ran : cursor.readPayload size = (.ok (), taken, next)) :
    ∃ payload, payload.length = size ∧ cursor.rest = payload ++ crlf ++ next.rest ∧ next.Valid := by
  unfold readPayload at ran
  simp only at ran
  split at ran
  · cases ran
  · split at ran
    · rename_i block reader gathered
      split at ran
      · cases ran
      · rename_i ends
        cases ran
        have reads := ByteStream.gather_reads gathered
        have reached : cursor.pos + size + 2 ≤ (cursor.parseBuf ++ taken).length := by
          have found := ByteStream.gather_found gathered
          by_contra short
          rw [if_pos (by omega)] at found
          cases found
        refine ⟨((cursor.parseBuf ++ taken).drop cursor.pos).take size, ?_, ?_, valid_of_reads valid reads reached⟩
        · rw [List.length_take, List.length_drop]
          omega
        · rw [ne_eq, not_not, List.drop_take, Nat.add_sub_cancel_left] at ends
          rw [rest_split valid reads, rest, ← List.append_assoc, ← drop_payload ends]
    · cases ran
    · cases ran

theorem Takes.rest_of_append {text behind : List UInt8} (takes : cursor.Takes count taken next)
    (starts : cursor.rest = text ++ behind) (length : text.length = count) : next.rest = behind := by
  rw [takes.rest_eq, starts, ← length, List.drop_left]

/-- A line, and what is left behind it. -/
theorem readLine_behind {line rest behind : List UInt8} (closed : String) (valid : cursor.Valid) (isLine : IsLine line)
    (starts : cursor.rest = line ++ crlf ++ rest ++ behind) :
    ∃ taken next, cursor.readLine closed = (.ok line, taken, next) ∧ cursor.Takes (line.length + 2) taken next ∧
      next.rest = rest ++ behind := by
  rw [List.append_assoc] at starts
  obtain ⟨taken, next, ran, takes⟩ := readLine_ok closed valid isLine starts
  exact ⟨taken, next, ran, takes, takes.rest_of_append starts (by rw [List.length_append, length_crlf])⟩

theorem readPayload_behind {payload rest behind : List UInt8} (valid : cursor.Valid)
    (starts : cursor.rest = payload ++ crlf ++ rest ++ behind) :
    ∃ taken next, cursor.readPayload payload.length = (.ok (), taken, next) ∧
      cursor.Takes (payload.length + 2) taken next ∧ next.rest = rest ++ behind := by
  rw [List.append_assoc] at starts
  obtain ⟨taken, next, ran, takes⟩ := readPayload_ok valid starts
  exact ⟨taken, next, ran, takes, takes.rest_of_append starts (by rw [List.length_append, length_crlf])⟩

end Cursor

/-! The relay of a chunked body. -/

section Relay

variable {cursor : Cursor} {body behind : List UInt8} {fuel : Nat}

theorem relayTrailersFor_ok (trailers : Trailers body) (valid : cursor.Valid) (starts : cursor.rest = body ++ behind)
    (enough : body.length ≤ fuel) : ∃ taken next,
      relayTrailersFor fuel cursor = ⟨.ok (), next.reader, taken⟩ ∧ cursor.Takes body.length taken next := by
  induction trailers generalizing cursor fuel with
  | last =>
    cases fuel with
    | zero => cases enough
    | succ fuel =>
      have isLine : IsLine [] := rfl
      obtain ⟨taken, next, ran, takes⟩ := Cursor.readLine_ok "Chunked body ended before trailer terminator" valid
        isLine starts
      exact ⟨taken, next, by simp only [relayTrailersFor, ran, List.isEmpty_nil, if_true], takes⟩
  | @line line rest isLine filled trailers ih =>
    cases fuel with
    | zero =>
      rw [List.length_append, List.length_append, length_crlf] at enough
      omega
    | succ fuel =>
      obtain ⟨taken, next, ran, takes, behind_line⟩ :=
        Cursor.readLine_behind "Chunked body ended before trailer terminator" valid isLine starts
      rw [List.length_append, List.length_append, length_crlf] at enough
      obtain ⟨further, last, relayed, takes_further⟩ := ih takes.valid behind_line (by omega : rest.length ≤ fuel)
      refine ⟨taken ++ further, last, ?_, ?_⟩
      · have not_empty : line.isEmpty = false := by
          rw [List.isEmpty_eq_false_iff]
          exact filled
        simp only [relayTrailersFor, ran, not_empty, Bool.false_eq_true, if_false, relayed, Copied.after]
      · rw [List.length_append, List.length_append, length_crlf]
        exact takes.trans takes_further

theorem relayTrailers_ok (trailers : Trailers body) (valid : cursor.Valid) (starts : cursor.rest = body ++ behind) :
    ∃ taken next, relayTrailers cursor = ⟨.ok (), next.reader, taken⟩ ∧ cursor.Takes body.length taken next := by
  apply relayTrailersFor_ok trailers valid starts
  have length := congrArg List.length starts
  rw [Cursor.rest, List.length_append, List.length_append, List.length_drop] at length
  omega

theorem relayChunksFor_ok (chunked : ChunkedBody body) (valid : cursor.Valid) (starts : cursor.rest = body ++ behind)
    (enough : body.length ≤ fuel) : ∃ taken next,
      relayChunksFor fuel cursor = ⟨.ok (), next.reader, taken⟩ ∧ cursor.Takes body.length taken next := by
  induction chunked generalizing cursor fuel with
  | @last line trailers isLine size trailing =>
    cases fuel with
    | zero =>
      rw [List.length_append, List.length_append, length_crlf] at enough
      omega
    | succ fuel =>
      obtain ⟨taken, next, ran, takes, behind_line⟩ :=
        Cursor.readLine_behind "Chunked body ended before chunk-size line" valid isLine starts
      obtain ⟨further, last, relayed, takes_further⟩ := relayTrailers_ok trailing takes.valid behind_line
      refine ⟨taken ++ further, last, ?_, ?_⟩
      · simp only [relayChunksFor, ran, size, if_true, relayed, Copied.after]
      · rw [List.length_append, List.length_append, length_crlf]
        exact takes.trans takes_further
  | @chunk line payload rest isLine size filled chunked ih =>
    cases fuel with
    | zero =>
      rw [List.length_append, List.length_append, length_crlf] at enough
      omega
    | succ fuel =>
      obtain ⟨taken, next, ran, takes, behind_line⟩ :=
        Cursor.readLine_behind "Chunked body ended before chunk-size line" valid isLine starts
      obtain ⟨brought, last, read, takes_payload, behind_chunk⟩ := Cursor.readPayload_behind takes.valid behind_line
      have takes_drain := takes_payload.trans (Cursor.takes_drain takes_payload.valid)
      rw [← takes_drain.rest_eq.trans takes_payload.rest_eq.symm] at behind_chunk
      simp only [List.length_append, length_crlf] at enough
      obtain ⟨further, final, relayed, takes_further⟩ :=
        ih takes_drain.valid behind_chunk (by omega : rest.length ≤ fuel)
      refine ⟨taken ++ brought ++ further, final, ?_, ?_⟩
      · have not_zero : payload.length ≠ 0 := fun zero => filled (List.length_eq_zero_iff.mp zero)
        simp only [relayChunksFor, ran, size, if_neg not_zero, read, relayed, Copied.after]
      · have together := takes.trans (takes_drain.trans takes_further)
        rw [List.append_nil, ← List.append_assoc] at together
        have length : (line ++ crlf ++ (payload ++ crlf ++ rest)).length =
            line.length + 2 + (payload.length + 2 + 0 + rest.length) := by
          simp only [List.length_append, length_crlf]
        rw [length]
        exact together

theorem relayTrailersFor_reads (fuel : Nat) (cursor : Cursor) : ByteStream.Reads relayBufSize cursor.reader
    (relayTrailersFor fuel cursor).forwarded (relayTrailersFor fuel cursor).reader := by
  induction fuel generalizing cursor with
  | zero => exact .none
  | succ fuel ih =>
    unfold relayTrailersFor
    split
    · rename_i ran
      exact Cursor.readLine_reads ran
    · rename_i ran
      split
      · exact Cursor.readLine_reads ran
      · exact (Cursor.readLine_reads ran).trans (ih _)

theorem relayChunksFor_reads (fuel : Nat) (cursor : Cursor) : ByteStream.Reads relayBufSize cursor.reader
    (relayChunksFor fuel cursor).forwarded (relayChunksFor fuel cursor).reader := by
  induction fuel generalizing cursor with
  | zero => exact .none
  | succ fuel ih =>
    unfold relayChunksFor
    split
    · rename_i ran
      exact Cursor.readLine_reads ran
    · rename_i taken next ran
      have line_reads := Cursor.readLine_reads ran
      split
      · exact line_reads
      · split
        · exact line_reads.trans (relayTrailersFor_reads _ next)
        · split
          · rename_i read
            exact line_reads.trans (Cursor.readPayload_reads read)
          · rename_i last read
            have more := ih last.drain
            have same : last.drain.reader = last.reader := by
              unfold Cursor.drain
              split <;> rfl
            rw [same] at more
            exact (line_reads.trans (Cursor.readPayload_reads read)).trans more

theorem trailers_of_relay (valid : cursor.Valid) (relayed : (relayTrailersFor fuel cursor).result = .ok ()) :
    ∃ body, Trailers body ∧ body <+: cursor.rest := by
  induction fuel generalizing cursor with
  | zero => cases relayed
  | succ fuel ih =>
    unfold relayTrailersFor at relayed
    split at relayed
    · cases relayed
    · rename_i line taken next ran
      obtain ⟨isLine, split_rest, valid_next⟩ := Cursor.readLine_line valid ran
      rw [split_rest]
      split at relayed
      · rename_i empty
        rw [List.isEmpty_iff.mp empty]
        exact ⟨crlf, .last, List.prefix_append _ _⟩
      · rename_i filled
        obtain ⟨body, trailers, starts⟩ := ih valid_next relayed
        refine ⟨line ++ crlf ++ body, .line isLine ?_ trailers, ?_⟩
        · intro empty
          rw [empty] at filled
          exact filled rfl
        · exact (List.prefix_append_right_inj _).mpr starts

theorem chunked_of_relay (valid : cursor.Valid) (relayed : (relayChunksFor fuel cursor).result = .ok ()) :
    ∃ body, ChunkedBody body ∧ body <+: cursor.rest := by
  induction fuel generalizing cursor with
  | zero => cases relayed
  | succ fuel ih =>
    unfold relayChunksFor at relayed
    split at relayed
    · cases relayed
    · rename_i line taken next ran
      obtain ⟨isLine, split_rest, valid_next⟩ := Cursor.readLine_line valid ran
      rw [split_rest]
      split at relayed
      · cases relayed
      · rename_i size sized
        split at relayed
        · rename_i zero
          obtain ⟨trailers, trailing, starts⟩ := trailers_of_relay valid_next relayed
          exact ⟨_, .last isLine (zero ▸ sized) trailing, (List.prefix_append_right_inj _).mpr starts⟩
        · rename_i not_zero
          split at relayed
          · cases relayed
          · rename_i brought last read
            obtain ⟨payload, length, split_payload, valid_last⟩ := Cursor.readPayload_payload valid_next read
            have drained := Cursor.takes_drain valid_last
            obtain ⟨body, chunked, starts⟩ := ih drained.valid relayed
            rw [drained.rest_eq] at starts
            rw [split_payload]
            refine ⟨_, .chunk isLine (length ▸ sized) ?_ chunked, ?_⟩
            · intro empty
              rw [empty] at length
              exact not_zero length.symm
            · exact (List.prefix_append_right_inj _).mpr ((List.prefix_append_right_inj _).mpr starts)

end Relay

/-! The two sides of the relay as its callers see it. -/

theorem relayChunked_reads (reader : ByteStream) (overflow : List UInt8) : ByteStream.Reads relayBufSize reader
    (relayChunked reader overflow).forwarded (relayChunked reader overflow).reader :=
  relayChunksFor_reads _ ⟨overflow, 0, reader⟩

theorem valid_start {reader : ByteStream} {overflow : List UInt8} (bounded : (overflow ++ reader.bytes).length < 2 ^ 64) :
    Cursor.Valid ⟨overflow, 0, reader⟩ := by
  refine ⟨Nat.zero_le _, ?_⟩
  rw [List.length_append] at bounded
  exact bounded

theorem relayChunked_complete {reader : ByteStream} {overflow body : List UInt8}
    (bounded : (overflow ++ reader.bytes).length < 2 ^ 64) (chunked : ChunkedBody body)
    (starts : body <+: overflow ++ reader.bytes) : ∃ taken rest, relayChunked reader overflow = ⟨.ok (), rest, taken⟩ ∧
      ByteStream.ReadsFor relayBufSize (body.length - overflow.length) reader taken rest ∧
      body.length ≤ (overflow ++ taken).length := by
  obtain ⟨behind, split⟩ := starts
  have enough : body.length ≤ overflow.length + reader.bytes.length + 1 := by
    rw [← List.length_append, ← split, List.length_append]
    omega
  obtain ⟨taken, next, ran, takes⟩ := relayChunksFor_ok chunked (valid_start bounded) split.symm enough
  have kept := takes.kept
  have reads := takes.reads
  simp only [Cursor.held, Nat.sub_zero] at kept reads
  refine ⟨taken, next.reader, ran, reads, ?_⟩
  rw [List.length_append]
  omega

theorem chunked_of_relayChunked {reader : ByteStream} {overflow : List UInt8}
    (bounded : (overflow ++ reader.bytes).length < 2 ^ 64)
    (relayed : (relayChunked reader overflow).result = .ok ()) :
    ∃ body, ChunkedBody body ∧ body <+: overflow ++ reader.bytes :=
  chunked_of_relay (valid_start bounded) relayed

end OpenShell.Sandbox
