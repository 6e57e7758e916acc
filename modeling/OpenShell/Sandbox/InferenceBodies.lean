import OpenShell.Sandbox.ChunkLines
import OpenShell.Sandbox.Inference

namespace OpenShell.Sandbox.Inference

open Text Results

/-! The parser of a chunked body takes exactly the chunked bodies within its limits, and never aborts. -/

section Primitives

variable {overflowChecks : Bool} {buf : List UInt8} {pos offset : Nat}

theorem add_small {first second : Nat} (small : first + second < 2 ^ 64) :
    add overflowChecks first second = .ok (first + second) := if_pos small

theorem checkedAdd_small {first second : Nat} (small : first + second < 2 ^ 64) :
    checkedAdd first second = .ok (first + second) := if_pos small

theorem slice_within {stop : Nat} (ordered : pos ≤ stop) (within : stop ≤ buf.length) :
    slice buf pos stop = .ok ((buf.drop pos).take (stop - pos)) := by
  rw [slice, if_pos ⟨ordered, within⟩, List.drop_take]

theorem chunkSize_eq (line : List UInt8) : chunkSize line = (OpenShell.Sandbox.chunkSize line).toOption := by
  unfold chunkSize OpenShell.Sandbox.chunkSize
  cases utf8Decode line with
  | none => rfl
  | some text =>
    obtain ⟨first, later, same⟩ := List.exists_cons_of_ne_nil (@split_ne_nil ';' text)
    simp only [bind, Option.bind_some, same, List.head?_cons, List.headD_cons]
    cases parseUnsigned 16 (2 ^ 64) (trim first) <;> rfl

theorem line_missing (within : pos ≤ buf.length) (missing : position crlf (buf.drop pos) = none) :
    findCrlf overflowChecks buf pos = .error .missing := by
  rw [findCrlf, if_pos within, orMissing]
  simp only [bind, Except.bind, missing, orMissing]

theorem line_found (bounded : buf.length ≤ maxSlice) (within : pos ≤ buf.length)
    (found : position crlf (buf.drop pos) = some offset) :
    findCrlf overflowChecks buf pos = .ok (pos + offset) ∧ slice buf pos (pos + offset) = .ok ((buf.drop pos).take offset) ∧
      checkedAdd (pos + offset) 2 = .ok (pos + offset + 2) ∧ pos + offset + 2 ≤ buf.length := by
  have reached : pos + offset + 2 ≤ buf.length := by
    have length := position_reaches found
    rw [List.length_drop, length_crlf] at length
    omega
  unfold maxSlice at bounded
  refine ⟨?_, ?_, ?_, reached⟩
  · rw [findCrlf, if_pos within, orMissing]
    simp only [bind, Except.bind, found, orMissing]
    rw [add_small (by omega)]
    rfl
  · rw [slice_within (by omega) (by omega), Nat.add_sub_cancel_left]
  · exact checkedAdd_small (by omega)

end Primitives

section Bodies

variable {overflowChecks : Bool} {buf : List UInt8} {pos fuel : Nat}

/-- The trailers at the position are read, or there are none. -/
theorem parseTrailersFor_cases (bounded : buf.length ≤ maxSlice) (within : pos ≤ buf.length)
    (enough : buf.length - pos < fuel) :
    (∃ trailers, Trailers trailers ∧ trailers <+: buf.drop pos ∧
        parseTrailersFor overflowChecks buf fuel pos = .ok (pos + trailers.length)) ∨
      (parseTrailersFor overflowChecks buf fuel pos = .error .missing ∧
        ∀ trailers, Trailers trailers → ¬ trailers <+: buf.drop pos) := by
  induction fuel generalizing pos with
  | zero => omega
  | succ fuel ih =>
    rw [parseTrailersFor]
    cases found : position crlf (buf.drop pos) with
    | none =>
      refine .inr ⟨by rw [line_missing within found]; rfl, ?_⟩
      intro trailers complete starts
      obtain ⟨offset, there, _⟩ := complete.start starts
      rw [found] at there
      cases there
    | some offset =>
      obtain ⟨at_end, line, behind, reached⟩ := @line_found overflowChecks buf pos offset bounded within found
      have shorter : (buf.drop pos).drop (offset + 2) = buf.drop (pos + offset + 2) := by
        rw [List.drop_drop, Nat.add_assoc]
      rw [at_end]
      simp only [bind, Except.bind, line, orAbort, Except.mapError, behind]
      by_cases empty : offset = 0
      · subst empty
        left
        obtain ⟨_, starts, _⟩ := line_prefix found List.nil_prefix
        refine ⟨crlf, .last, by simpa using starts, ?_⟩
        rw [List.take_zero]
        rfl
      · have filled : (buf.drop pos).take offset ≠ [] := by
          rw [ne_eq, List.take_eq_nil_iff, List.drop_eq_nil_iff]
          omega
        have going : ((buf.drop pos).take offset).isEmpty = false := List.isEmpty_eq_false_iff.mpr filled
        rw [going]
        rcases @ih (pos + offset + 2) (by omega) (by omega) with ⟨trailers, complete, starts, parsed⟩ | ⟨parsed, none⟩
        · left
          rw [← shorter] at starts
          obtain ⟨isLine, startsToo, length⟩ := line_prefix found starts
          refine ⟨_, .line isLine filled complete, startsToo, ?_⟩
          rw [length]
          simp only [Bool.false_eq_true, if_false, parsed, Except.ok.injEq]
          omega
        · refine .inr ⟨by simpa using parsed, ?_⟩
          intro trailers complete starts
          obtain ⟨other, there, ⟨zero, _⟩ | ⟨_, later, completeLater, startsLater, _⟩⟩ := complete.start starts
          · rw [found, Option.some.injEq] at there
            omega
          · rw [found, Option.some.injEq] at there
            rw [← there, shorter] at startsLater
            exact none later completeLater startsLater

theorem chunkedAs_terminator : ChunkedAs [utf8Encode ['0']] [] formatChunkTerminator := by
  have split : formatChunkTerminator = utf8Encode ['0'] ++ crlf ++ crlf := by decide
  rw [split]
  exact .last rfl rfl .last

/-- The bytes begin with a chunked body of that many bytes, which decodes to `decoded` within the limits. -/
def Decodes (chunks room : Nat) (rest decoded : List UInt8) (length : Nat) : Prop :=
  ∃ lines bytes, ChunkedAs lines decoded bytes ∧ bytes <+: rest ∧ lines.length ≤ chunks ∧ decoded.length ≤ room ∧
    bytes.length = length

theorem Decodes.unique {chunks room chunksToo roomToo length lengthToo : Nat} {rest decoded decodedToo : List UInt8}
    (decodes : Decodes chunks room rest decoded length) (decodesToo : Decodes chunksToo roomToo rest decodedToo lengthToo) :
    decoded = decodedToo ∧ length = lengthToo := by
  obtain ⟨lines, bytes, chunked, starts, _, _, rfl⟩ := decodes
  obtain ⟨others, other, chunkedToo, startsToo, _, _, rfl⟩ := decodesToo
  obtain ⟨_, same, bodies⟩ := chunked.unique_of_prefix chunkedToo starts startsToo
  exact ⟨same, by rw [bodies]⟩

theorem Decodes.append {chunks room length : Nat} {rest decoded : List UInt8} (decodes : Decodes chunks room rest decoded length)
    (more : List UInt8) : Decodes chunks room (rest ++ more) decoded length := by
  obtain ⟨lines, bytes, chunked, starts, counted, fits, size⟩ := decodes
  exact ⟨lines, bytes, chunked, starts.trans (List.prefix_append _ _), counted, fits, size⟩

theorem Decodes.length_le {chunks room length : Nat} {rest decoded : List UInt8} (decodes : Decodes chunks room rest decoded length) :
    length ≤ rest.length := by
  obtain ⟨_, bytes, _, starts, _, _, rfl⟩ := decodes
  exact starts.length_le

section Start

variable {chunks room offset length : Nat} {rest decoded : List UInt8}

theorem not_decodes_zero : ¬ Decodes 0 room rest decoded length := by
  rintro ⟨lines, bytes, chunked, _, counted, _⟩
  cases chunked <;> simp at counted

theorem Decodes.line (decodes : Decodes chunks room rest decoded length) (found : position crlf rest = some offset) :
    (OpenShell.Sandbox.chunkSize (rest.take offset) = .ok 0 ∧ decoded = [] ∧
        ∃ trailers, Trailers trailers ∧ trailers <+: rest.drop (offset + 2) ∧ length = offset + 2 + trailers.length) ∨
      ∃ payload decodedBehind lengthBehind, payload ≠ [] ∧
        OpenShell.Sandbox.chunkSize (rest.take offset) = .ok payload.length ∧ decoded = payload ++ decodedBehind ∧
        payload ++ crlf <+: rest.drop (offset + 2) ∧ payload.length ≤ room ∧
        Decodes (chunks - 1) (room - payload.length) (rest.drop (offset + 2 + (payload.length + 2))) decodedBehind
          lengthBehind ∧ length = offset + 2 + (payload.length + 2) + lengthBehind := by
  obtain ⟨lines, bytes, chunked, starts, counted, fits, rfl⟩ := decodes
  obtain ⟨other, there, cases⟩ := chunked.start starts
  rw [found, Option.some.injEq] at there
  subst there
  rcases cases with ⟨size, _, empty, trailers, complete, startsToo, length⟩ |
    ⟨payload, linesBehind, decodedBehind, bodyBehind, filled, size, sameLines, sameDecoded, ends, behind, startsBehind, length⟩
  · exact .inl ⟨size, empty, trailers, complete, startsToo, length⟩
  · right
    rw [sameLines, List.length_cons] at counted
    rw [sameDecoded, List.length_append] at fits
    exact ⟨payload, decodedBehind, bodyBehind.length, filled, size, sameDecoded, ends, by omega,
      ⟨linesBehind, bodyBehind, behind, startsBehind, by omega, by omega, rfl⟩, length⟩

theorem not_decodes_open (missing : position crlf rest = none) : ¬ Decodes chunks room rest decoded length := by
  rintro ⟨lines, bytes, chunked, starts, _⟩
  obtain ⟨offset, there, _⟩ := chunked.start starts
  rw [missing] at there
  cases there

theorem Decodes.sized (decodes : Decodes chunks room rest decoded length) (found : position crlf rest = some offset) :
    ∃ size, OpenShell.Sandbox.chunkSize (rest.take offset) = .ok size := by
  rcases decodes.line found with ⟨zero, _⟩ | ⟨_, _, _, _, sized, _⟩
  · exact ⟨_, zero⟩
  · exact ⟨_, sized⟩

theorem Decodes.trailers (decodes : Decodes chunks room rest decoded length) (found : position crlf rest = some offset)
    (size : OpenShell.Sandbox.chunkSize (rest.take offset) = .ok 0) :
    ∃ trailers, Trailers trailers ∧ trailers <+: rest.drop (offset + 2) := by
  rcases decodes.line found with ⟨_, _, trailers, complete, starts, _⟩ | ⟨payload, _, _, filled, sized, _⟩
  · exact ⟨trailers, complete, starts⟩
  · rw [size, Except.ok.injEq, eq_comm, List.length_eq_zero_iff] at sized
    exact absurd sized filled

theorem Decodes.payload (decodes : Decodes chunks room rest decoded length) (found : position crlf rest = some offset)
    {size : Nat} (sized : OpenShell.Sandbox.chunkSize (rest.take offset) = .ok size) (positive : size ≠ 0) :
    ∃ payload decodedBehind lengthBehind, payload.length = size ∧ payload ++ crlf <+: rest.drop (offset + 2) ∧
      size ≤ room ∧
      Decodes (chunks - 1) (room - size) (rest.drop (offset + 2 + (size + 2))) decodedBehind lengthBehind := by
  rcases decodes.line found with ⟨zero, _⟩ | ⟨payload, decodedBehind, lengthBehind, _, same, _, ends, fits, behind, _⟩
  · rw [sized, Except.ok.injEq] at zero
    exact absurd zero positive
  · rw [sized, Except.ok.injEq] at same
    subst same
    exact ⟨payload, decodedBehind, lengthBehind, rfl, ends, fits, behind⟩

theorem decodes_last (positive : 0 < chunks) (found : position crlf rest = some offset)
    (size : OpenShell.Sandbox.chunkSize (rest.take offset) = .ok 0) {trailers : List UInt8} (complete : Trailers trailers)
    (starts : trailers <+: rest.drop (offset + 2)) : Decodes chunks room rest [] (offset + 2 + trailers.length) := by
  obtain ⟨isLine, startsToo, length⟩ := line_prefix found starts
  refine ⟨_, _, .last isLine size complete, startsToo, ?_, Nat.zero_le _, length⟩
  rw [List.length_singleton]
  exact positive

theorem decodes_chunk (positive : 0 < chunks) (found : position crlf rest = some offset) {payload : List UInt8}
    (filled : payload ≠ []) (size : OpenShell.Sandbox.chunkSize (rest.take offset) = .ok payload.length)
    (ends : payload ++ crlf <+: rest.drop (offset + 2)) (fits : payload.length ≤ room)
    (behind : Decodes (chunks - 1) (room - payload.length) (rest.drop (offset + 2 + (payload.length + 2))) decoded length) :
    Decodes chunks room rest (payload ++ decoded) (offset + 2 + (payload.length + 2) + length) := by
  obtain ⟨lines, bytes, chunked, starts, counted, fitsBehind, rfl⟩ := behind
  have whole : payload ++ crlf ++ bytes <+: rest.drop (offset + 2) := by
    obtain ⟨later, split⟩ := ends
    have dropped : rest.drop (offset + 2 + (payload.length + 2)) = later := by
      rw [← List.drop_drop, ← split]
      exact List.drop_left' (by rw [List.length_append, length_crlf])
    rw [dropped] at starts
    rw [← split]
    exact (List.prefix_append_right_inj _).mpr starts
  obtain ⟨isLine, startsToo, size_eq⟩ := line_prefix found whole
  refine ⟨_, _, .chunk isLine size filled chunked, startsToo, ?_, ?_, ?_⟩
  · rw [List.length_cons]
    omega
  · rw [List.length_append]
    omega
  · rw [size_eq]
    simp only [List.length_append, length_crlf]
    omega

end Start

end Bodies

section Chunks

variable {overflowChecks : Bool} {buf body : List UInt8} {limits : Limits} {chunks pos offset : Nat}

theorem parseChunksFor_unsized (bounded : buf.length ≤ maxSlice) (within : pos ≤ buf.length)
    (found : position crlf (buf.drop pos) = some offset)
    (unsized : ∀ size, OpenShell.Sandbox.chunkSize ((buf.drop pos).take offset) ≠ .ok size) :
    parseChunksFor overflowChecks buf limits (chunks + 1) pos body = .error .missing := by
  obtain ⟨at_end, line, _, _⟩ := @line_found overflowChecks buf pos offset bounded within found
  rw [parseChunksFor, at_end]
  simp only [bind, Except.bind, line, orAbort, Except.mapError, chunkSize_eq]
  cases size : OpenShell.Sandbox.chunkSize ((buf.drop pos).take offset) with
  | error _ => rfl
  | ok size => exact absurd ‹_› (unsized _)

theorem parseChunksFor_last (bounded : buf.length ≤ maxSlice) (within : pos ≤ buf.length)
    (found : position crlf (buf.drop pos) = some offset)
    (size : OpenShell.Sandbox.chunkSize ((buf.drop pos).take offset) = .ok 0) :
    parseChunksFor overflowChecks buf limits (chunks + 1) pos body =
      (parseTrailersFor overflowChecks buf (buf.length + 1) (pos + offset + 2)).map (body, ·) := by
  obtain ⟨at_end, line, behind, _⟩ := @line_found overflowChecks buf pos offset bounded within found
  rw [parseChunksFor, at_end]
  simp only [bind, Except.bind, line, orAbort, Except.mapError, chunkSize_eq, size, Except.toOption, orMissing, behind,
    ↓reduceIte]
  cases parseTrailersFor overflowChecks buf (buf.length + 1) (pos + offset + 2) <;> rfl

theorem parseChunksFor_short (bounded : buf.length ≤ maxSlice) (within : pos ≤ buf.length)
    (found : position crlf (buf.drop pos) = some offset) {length : Nat}
    (size : OpenShell.Sandbox.chunkSize ((buf.drop pos).take offset) = .ok length) (positive : length ≠ 0)
    (short : buf.length < pos + offset + 2 + length + 2) :
    parseChunksFor overflowChecks buf limits (chunks + 1) pos body = .error .missing := by
  obtain ⟨at_end, line, next, reached⟩ := @line_found overflowChecks buf pos offset bounded within found
  rw [parseChunksFor, at_end]
  simp only [bind, Except.bind, line, orAbort, Except.mapError, chunkSize_eq, size, Except.toOption, orMissing, next,
    if_neg positive]
  unfold maxSlice at bounded
  split
  · rfl
  · split
    · rfl
    · rw [checkedAdd_small (by omega)]
      simp only
      rw [checkedAdd_small (by omega)]
      simp only [if_pos short]

/-- A chunk that has come whole is taken where the decoded body stays within the limit and a line break ends it. -/
theorem parseChunksFor_whole (bounded : buf.length ≤ maxSlice) (within : pos ≤ buf.length) (behind : body.length ≤ pos)
    (found : position crlf (buf.drop pos) = some offset) {length : Nat}
    (size : OpenShell.Sandbox.chunkSize ((buf.drop pos).take offset) = .ok length) (positive : length ≠ 0)
    (whole : pos + offset + 2 + length + 2 ≤ buf.length) :
    parseChunksFor overflowChecks buf limits (chunks + 1) pos body =
      if limits.chunkedBody < body.length + length then .error .missing
      else if (buf.drop (pos + offset + 2 + length)).take 2 ≠ crlf then .error .missing
      else parseChunksFor overflowChecks buf limits chunks (pos + offset + 2 + length + 2)
        (body ++ (buf.drop (pos + offset + 2)).take length) := by
  obtain ⟨at_end, line, next, reached⟩ := @line_found overflowChecks buf pos offset bounded within found
  rw [parseChunksFor, at_end]
  simp only [bind, Except.bind, line, orAbort, Except.mapError, chunkSize_eq, size, Except.toOption, orMissing, next,
    if_neg positive]
  unfold maxSlice at bounded
  have plain : saturatingAdd body.length length = body.length + length := by
    unfold saturatingAdd
    omega
  rw [if_neg (show ¬ buf.length - (pos + offset + 2) < length by omega), checkedAdd_small (by omega), plain]
  simp only
  rw [checkedAdd_small (by omega)]
  simp only [if_neg (show ¬ buf.length < pos + offset + 2 + length + 2 by omega)]
  rw [slice_within (by omega) (by omega), slice_within (by omega) (by omega)]
  simp only [Nat.add_sub_cancel_left]

/-- A chunk with payload is taken when the buffer has it with its line break and the decoded body stays within the
limit. -/
theorem parseChunksFor_chunk (bounded : buf.length ≤ maxSlice) (within : pos ≤ buf.length) (behind : body.length ≤ pos)
    (found : position crlf (buf.drop pos) = some offset) {length : Nat}
    (size : OpenShell.Sandbox.chunkSize ((buf.drop pos).take offset) = .ok length) (positive : length ≠ 0) :
    (∃ payload, payload.length = length ∧ payload ++ crlf <+: buf.drop (pos + offset + 2) ∧
        body.length + length ≤ limits.chunkedBody ∧ pos + (offset + 2 + (length + 2)) ≤ buf.length ∧
        parseChunksFor overflowChecks buf limits (chunks + 1) pos body =
          parseChunksFor overflowChecks buf limits chunks (pos + (offset + 2 + (length + 2))) (body ++ payload)) ∨
      (parseChunksFor overflowChecks buf limits (chunks + 1) pos body = .error .missing ∧
        ∀ payload, payload.length = length → payload ++ crlf <+: buf.drop (pos + offset + 2) →
          limits.chunkedBody < body.length + length) := by
  by_cases short : buf.length < pos + offset + 2 + length + 2
  · refine .inr ⟨parseChunksFor_short bounded within found size positive short, ?_⟩
    intro payload same starts
    have longer := starts.length_le
    rw [List.length_append, length_crlf, List.length_drop] at longer
    omega
  rw [parseChunksFor_whole bounded within behind found size positive (by omega)]
  by_cases large : limits.chunkedBody < body.length + length
  · exact .inr ⟨if_pos large, fun _ _ _ => large⟩
  rw [if_neg large]
  have payloadEnd : buf.drop (pos + offset + 2 + length) = (buf.drop (pos + offset + 2)).drop length :=
    List.drop_drop.symm
  by_cases ends : (buf.drop (pos + offset + 2 + length)).take 2 = crlf
  · left
    refine ⟨(buf.drop (pos + offset + 2)).take length, ?_, ?_, by omega, by omega, ?_⟩
    · rw [List.length_take, List.length_drop]
      omega
    · rw [← ends, payloadEnd, ← List.take_add]
      exact List.take_prefix _ _
    · rw [if_neg (not_not_intro ends)]
      simp only [Nat.add_assoc]
  · refine .inr ⟨if_pos ends, ?_⟩
    intro payload same starts
    obtain ⟨later, split⟩ := starts
    refine absurd ?_ ends
    rw [payloadEnd, ← split, List.append_assoc, List.drop_left' same]
    exact List.take_left' length_crlf

/-- The result is the body that the bytes begin with, behind what is decoded before; or there is none within the
limits. -/
def Settled (chunks room : Nat) (rest body : List UInt8) (pos : Nat) (result : Except Stop (List UInt8 × Nat)) : Prop :=
  (∃ decoded length, Decodes chunks room rest decoded length ∧ result = .ok (body ++ decoded, pos + length)) ∨
    (result = .error .missing ∧ ∀ decoded length, ¬ Decodes chunks room rest decoded length)

theorem settled_last (bounded : buf.length ≤ maxSlice) (within : pos ≤ buf.length)
    (found : position crlf (buf.drop pos) = some offset)
    (size : OpenShell.Sandbox.chunkSize ((buf.drop pos).take offset) = .ok 0) (room : Nat) :
    Settled (chunks + 1) room (buf.drop pos) body pos
      (parseChunksFor overflowChecks buf limits (chunks + 1) pos body) := by
  have reached := (@line_found overflowChecks buf pos offset bounded within found).2.2.2
  rw [parseChunksFor_last bounded within found size]
  rcases @parseTrailersFor_cases overflowChecks buf (pos + offset + 2) (buf.length + 1) bounded reached (by omega) with
    ⟨trailers, complete, starts, parsed⟩ | ⟨parsed, missing⟩
  · rw [Nat.add_assoc, ← List.drop_drop] at starts
    refine .inl ⟨[], _, decodes_last (Nat.succ_pos _) found size complete starts, ?_⟩
    rw [parsed, List.append_nil, Except.map, Nat.add_assoc, Nat.add_assoc, Nat.add_assoc]
  · refine .inr ⟨by rw [parsed]; rfl, ?_⟩
    intro decoded length decodes
    obtain ⟨trailers, complete, starts⟩ := decodes.trailers found size
    rw [List.drop_drop, ← Nat.add_assoc] at starts
    exact missing trailers complete starts

/-- What is settled behind a chunk is settled before it. -/
theorem settled_chunk {room length : Nat} {rest payload : List UInt8} {result : Except Stop (List UInt8 × Nat)}
    (found : position crlf rest = some offset) (size : OpenShell.Sandbox.chunkSize (rest.take offset) = .ok length)
    (positive : length ≠ 0) (same : payload.length = length) (ends : payload ++ crlf <+: rest.drop (offset + 2))
    (fits : length ≤ room)
    (behind : Settled chunks (room - length) (rest.drop (offset + 2 + (length + 2))) (body ++ payload)
      (pos + (offset + 2 + (length + 2))) result) :
    Settled (chunks + 1) room rest body pos result := by
  subst same
  rcases behind with ⟨decoded, taken, decodes, parsed⟩ | ⟨parsed, none⟩
  · have filled : payload ≠ [] := mt List.length_eq_zero_iff.mpr positive
    refine .inl ⟨_, _, decodes_chunk (Nat.succ_pos _) found filled size ends fits decodes, ?_⟩
    rw [parsed, List.append_assoc]
    simp only [Nat.add_assoc]
  · refine .inr ⟨parsed, ?_⟩
    intro decoded taken decodes
    obtain ⟨_, _, _, _, _, _, later⟩ := decodes.payload found size positive
    exact none _ _ later

/-- The parser of a chunked body decodes the body at the position, or there is none within the limits. -/
theorem parseChunksFor_cases (bounded : buf.length ≤ maxSlice) (within : pos ≤ buf.length) (behind : body.length ≤ pos)
    (small : body.length ≤ limits.chunkedBody) :
    Settled chunks (limits.chunkedBody - body.length) (buf.drop pos) body pos
      (parseChunksFor overflowChecks buf limits chunks pos body) := by
  induction chunks generalizing pos body with
  | zero => exact .inr ⟨rfl, fun _ _ => not_decodes_zero⟩
  | succ chunks ih =>
    cases found : position crlf (buf.drop pos) with
    | none =>
      exact .inr ⟨by rw [parseChunksFor, line_missing within found]; rfl, fun _ _ => not_decodes_open found⟩
    | some offset =>
      cases size : OpenShell.Sandbox.chunkSize ((buf.drop pos).take offset) with
      | error reason =>
        refine .inr ⟨parseChunksFor_unsized bounded within found (by rw [size]; rintro _ ⟨⟩), ?_⟩
        intro decoded length decodes
        obtain ⟨read, sized⟩ := decodes.sized found
        rw [size] at sized
        cases sized
      | ok length =>
        by_cases zero : length = 0
        · exact settled_last bounded within found (zero ▸ size) _
        · rcases @parseChunksFor_chunk overflowChecks buf body limits chunks pos offset bounded within behind found length
            size zero with ⟨payload, same, ends, fits, further, parsed⟩ | ⟨parsed, unfit⟩
          · have sum : (body ++ payload).length = body.length + length := by rw [List.length_append, same]
            have settled := @ih (body ++ payload) (pos + (offset + 2 + (length + 2))) further (by omega) (by omega)
            rw [sum, Nat.sub_add_eq, ← List.drop_drop] at settled
            rw [Nat.add_assoc, ← List.drop_drop] at ends
            rw [parsed]
            exact settled_chunk found size zero same ends (by omega) settled
          · refine .inr ⟨parsed, ?_⟩
            intro decoded taken decodes
            obtain ⟨payload, _, _, same, startsToo, fits, _⟩ := decodes.payload found size zero
            rw [List.drop_drop, ← Nat.add_assoc] at startsToo
            have large := unfit payload same startsToo
            omega

theorem parseChunkedBody_cases (overflowChecks : Bool) (bounded : buf.length ≤ maxSlice) (within : pos ≤ buf.length) :
    (∃ decoded length, Decodes limits.chunkCount limits.chunkedBody (buf.drop pos) decoded length ∧
        parseChunkedBody overflowChecks buf limits pos = .ok (decoded, pos + length)) ∨
      (parseChunkedBody overflowChecks buf limits pos = .error .missing ∧
        ∀ decoded length, ¬ Decodes limits.chunkCount limits.chunkedBody (buf.drop pos) decoded length) :=
  @parseChunksFor_cases overflowChecks buf [] limits limits.chunkCount pos bounded within (Nat.zero_le _) (Nat.zero_le _)

theorem parseChunkedBody_beyond (overflowChecks : Bool) (beyond : buf.length < pos) :
    parseChunkedBody overflowChecks buf limits pos = .error .missing := by
  unfold parseChunkedBody
  cases limits.chunkCount with
  | zero => rfl
  | succ chunks =>
    rw [parseChunksFor, findCrlf, if_neg (by omega)]
    rfl

theorem parseChunkedBody_eq_ok_iff {decoded : List UInt8} {consumed : Nat} (overflowChecks : Bool)
    (bounded : buf.length ≤ maxSlice) : parseChunkedBody overflowChecks buf limits pos = .ok (decoded, consumed) ↔
      pos ≤ buf.length ∧ ∃ length, consumed = pos + length ∧
        Decodes limits.chunkCount limits.chunkedBody (buf.drop pos) decoded length := by
  by_cases within : pos ≤ buf.length
  · rcases @parseChunkedBody_cases buf limits pos overflowChecks bounded within with
      ⟨found, length, decodes, parsed⟩ | ⟨parsed, none⟩
    · rw [parsed, Except.ok.injEq, Prod.mk.injEq]
      constructor
      · rintro ⟨rfl, rfl⟩
        exact ⟨within, length, rfl, decodes⟩
      · rintro ⟨_, other, rfl, decodesToo⟩
        obtain ⟨same, lengths⟩ := decodes.unique decodesToo
        exact ⟨same, by rw [lengths]⟩
    · rw [parsed]
      refine iff_of_false (fun impossible => by cases impossible) ?_
      rintro ⟨_, length, _, decodes⟩
      exact none decoded length decodes
  · rw [parseChunkedBody_beyond overflowChecks (by omega)]
    refine iff_of_false (fun impossible => by cases impossible) ?_
    rintro ⟨inside, _⟩
    exact within inside

end Chunks

end OpenShell.Sandbox.Inference
