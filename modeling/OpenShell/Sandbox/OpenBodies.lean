import OpenShell.Sandbox.InferenceBodies

namespace OpenShell.Sandbox.Inference

open Text Results

/-! Chunked bodies of which a part has come, and what may still follow it. -/

/-- The bytes are a part of a chunked body within the limits, and the body takes at least `need` bytes in all. -/
inductive Continues : Nat → Nat → List UInt8 → Nat → Prop
  | lastLine {chunks room : Nat} {line rest : List UInt8} (isLine : IsLine line)
      (size : OpenShell.Sandbox.chunkSize line = .ok 0) (starts : rest <+: line ++ crlf)
      (unended : rest.length < line.length + 2) : Continues (chunks + 1) room rest (line.length + 2 + 2)
  | sizeLine {chunks room length : Nat} {line rest : List UInt8} (isLine : IsLine line)
      (size : OpenShell.Sandbox.chunkSize line = .ok length) (positive : length ≠ 0) (fits : length ≤ room)
      (starts : rest <+: line ++ crlf) (unended : rest.length < line.length + 2) :
      Continues (chunks + 2) room rest (line.length + 2 + (length + 2) + 5)
  | payload {chunks room length : Nat} {line part : List UInt8} (isLine : IsLine line)
      (size : OpenShell.Sandbox.chunkSize line = .ok length) (positive : length ≠ 0) (fits : length ≤ room)
      (unended : part.length < length + 2) (ends : part.drop length <+: crlf) :
      Continues (chunks + 2) room (line ++ crlf ++ part) (line.length + 2 + (length + 2) + 5)
  | trailers {chunks room : Nat} {line part : List UInt8} (isLine : IsLine line)
      (size : OpenShell.Sandbox.chunkSize line = .ok 0) (unended : ∀ trailers, Trailers trailers → ¬ trailers <+: part) :
      Continues (chunks + 1) room (line ++ crlf ++ part) (line.length + 2 + part.length + 4)
  | chunk {chunks room need : Nat} {line payload rest : List UInt8} (isLine : IsLine line)
      (size : OpenShell.Sandbox.chunkSize line = .ok payload.length) (filled : payload ≠ []) (fits : payload.length ≤ room)
      (behind : Continues chunks (room - payload.length) rest need) :
      Continues (chunks + 1) room (line ++ crlf ++ (payload ++ crlf ++ rest)) (line.length + 2 + (payload.length + 2) + need)

/-! A part can be completed. -/

section Completion

variable {part : List UInt8}

/-- Bytes without a line break are a line, with one behind them. -/
theorem isLine_of_none (missing : position crlf part = none) : IsLine part := by
  refine position_behind (by decide) ((position_concat 0x0D missing).2 fun ends => ?_)
  obtain ⟨start, same⟩ := ends
  have last := congrArg List.getLast? same
  rw [List.getLast?_append_of_ne_nil _ (by decide), List.getLast?_concat] at last
  cases last

/-- Trailers that have not ended take four bytes more at most. -/
theorem trailers_complete (unended : ∀ trailers, Trailers trailers → ¬ trailers <+: part) :
    ∃ more, more.length ≤ 4 ∧ Trailers (part ++ more) := by
  induction size : part.length using Nat.strongRecOn generalizing part with
  | ind length ih =>
    cases found : position crlf part with
    | some offset =>
      obtain ⟨isLine, whole⟩ := isLine_of_position found
      by_cases empty : part.take offset = []
      · rw [empty] at whole
        exact absurd ⟨_, whole.symm⟩ (unended crlf .last)
      · have later : ∀ trailers, Trailers trailers → ¬ trailers <+: part.drop (offset + 2) := by
          intro trailers complete starts
          refine unended _ (.line isLine empty complete) ?_
          nth_rewrite 2 [whole]
          exact (List.prefix_append_right_inj _).mpr starts
        have reached : offset + 2 ≤ part.length := position_reaches found
        obtain ⟨more, short, complete⟩ := ih (part.drop (offset + 2)).length (by rw [List.length_drop]; omega) later rfl
        refine ⟨more, short, ?_⟩
        nth_rewrite 1 [whole]
        rw [List.append_assoc]
        exact .line isLine empty complete
    | none =>
      by_cases empty : part = []
      · subst empty
        exact ⟨crlf, by decide, .last⟩
      · refine ⟨crlf ++ crlf, by decide, ?_⟩
        rw [← List.append_assoc]
        exact .line (isLine_of_none found) empty .last

theorem decodes_padded {chunks room length : Nat} {line payload : List UInt8} (isLine : IsLine line)
    (size : OpenShell.Sandbox.chunkSize line = .ok length) (positive : length ≠ 0) (fits : length ≤ room)
    (padded : payload.length = length) :
    Decodes (chunks + 2) room (line ++ crlf ++ (payload ++ crlf ++ formatChunkTerminator)) payload
      (line ++ crlf ++ (payload ++ crlf ++ formatChunkTerminator)).length := by
  have filled : payload ≠ [] := by
    rintro rfl
    exact positive padded.symm
  have chunked := ChunkedAs.chunk isLine (padded ▸ size) filled chunkedAs_terminator
  rw [List.append_nil] at chunked
  exact ⟨_, _, chunked, List.prefix_rfl, by simp, by omega, rfl⟩

/-- A payload as far as it has come, with zeros behind it. -/
theorem padded_payload {length : Nat} (ends : part.drop length <+: crlf) :
    ∃ payload, payload.length = length ∧ part <+: payload ++ crlf := by
  refine ⟨part.take length ++ List.replicate (length - part.length) 0, ?_, ?_⟩
  · rw [List.length_append, List.length_take, List.length_replicate]
    omega
  · by_cases short : part.length ≤ length
    · rw [List.take_of_length_le short, List.append_assoc]
      exact List.prefix_append _ _
    · nth_rewrite 1 [← List.take_append_drop length part]
      rw [show length - part.length = 0 by omega, List.replicate_zero, List.append_nil, List.prefix_append_right_inj]
      exact ends

/-- A start of one chunk is completed by the rest of it and the terminator. -/
theorem chunk_completes {chunks room length : Nat} {line payload rest : List UInt8} (isLine : IsLine line)
    (size : OpenShell.Sandbox.chunkSize line = .ok length) (positive : length ≠ 0) (fits : length ≤ room)
    (padded : payload.length = length) (starts : rest <+: line ++ crlf ++ (payload ++ crlf)) :
    ∃ more decoded taken, (rest ++ more).length ≤ line.length + 2 + (length + 2) + 5 ∧
      Decodes (chunks + 2) room (rest ++ more) decoded taken := by
  have five : formatChunkTerminator.length = 5 := by decide
  have decodes := @decodes_padded chunks room length line payload isLine size positive fits padded
  obtain ⟨more, whole⟩ := starts.trans
    ((List.prefix_append_right_inj (line ++ crlf)).mpr (List.prefix_append (payload ++ crlf) formatChunkTerminator))
  refine ⟨more, _, _, ?_, whole ▸ decodes⟩
  rw [whole]
  simp only [List.length_append, length_crlf, five, padded]
  omega

/-- A part of a chunked body is completed by the bytes that it needs. -/
theorem Continues.completes {chunks room need : Nat} {rest : List UInt8} (continues : Continues chunks room rest need) :
    ∃ more decoded length, (rest ++ more).length ≤ need ∧ Decodes chunks room (rest ++ more) decoded length := by
  induction continues with
  | @lastLine chunks room line rest isLine size starts unended =>
    obtain ⟨more, whole⟩ := starts.trans (List.prefix_append (line ++ crlf) crlf)
    refine ⟨more, [], (rest ++ more).length, ?_, _, _, .last isLine size .last, ?_, by simp, Nat.zero_le _, ?_⟩
    · rw [whole]
      simp only [List.length_append, length_crlf]
      omega
    · rw [whole]
    · rw [whole]
  | @sizeLine chunks room length line rest isLine size positive fits starts unended =>
    exact chunk_completes isLine size positive fits List.length_replicate
      (starts.trans (List.prefix_append (line ++ crlf) (List.replicate length 0 ++ crlf)))
  | @payload chunks room length line part isLine size positive fits unended ends =>
    obtain ⟨payload, padded, starts⟩ := padded_payload ends
    exact chunk_completes isLine size positive fits padded ((List.prefix_append_right_inj (line ++ crlf)).mpr starts)
  | @trailers chunks room line part isLine size unended =>
    obtain ⟨more, short, complete⟩ := trailers_complete unended
    refine ⟨more, [], (line ++ crlf ++ part ++ more).length, ?_, _, _, .last isLine size complete, ?_, by simp, Nat.zero_le _, ?_⟩
    · simp only [List.length_append, length_crlf]
      omega
    · simp only [List.append_assoc]
      exact List.prefix_rfl
    · simp only [List.length_append]
      omega
  | @chunk chunks room need line payload rest isLine size filled fits behind ih =>
    obtain ⟨more, decoded, length, short, lines, bytes, chunked, starts, counted, within, rfl⟩ := ih
    refine ⟨more, payload ++ decoded, (line ++ crlf ++ (payload ++ crlf ++ bytes)).length, ?_,
      line :: lines, _, .chunk isLine size filled chunked, ?_, ?_, ?_, rfl⟩
    · simp only [List.length_append, length_crlf] at short ⊢
      omega
    · simp only [List.append_assoc, List.prefix_append_right_inj]
      exact starts
    · rw [List.length_cons]
      omega
    · rw [List.length_append]
      omega

end Completion

/-! What can be completed is a part. -/

section Parts

variable {lines : List (List UInt8)} {decoded body rest : List UInt8}

theorem two_le_trailers {trailers : List UInt8} (complete : Trailers trailers) : 2 ≤ trailers.length := by
  cases complete with
  | last => exact le_refl 2
  | line =>
    simp only [List.length_append, length_crlf]
    omega

theorem five_le_chunked (chunked : ChunkedAs lines decoded body) : 5 ≤ body.length ∧ 1 ≤ lines.length := by
  have filled : ∀ {line : List UInt8} {size : Nat}, OpenShell.Sandbox.chunkSize line = .ok size → 1 ≤ line.length := by
    intro line size sized
    cases line with
    | nil => cases sized
    | cons => exact Nat.le_add_left _ _
  cases chunked with
  | last isLine size behind =>
    have line := filled size
    have trailers := two_le_trailers behind
    simp only [List.length_append, length_crlf, List.length_singleton]
    omega
  | chunk isLine size _ behind =>
    have line := filled size
    have later := behind.length_le
    simp only [List.length_append, length_crlf, List.length_cons]
    omega

/-- A proper start of a chunked body continues to it. -/
theorem continues_of_prefix {chunks room : Nat} (chunked : ChunkedAs lines decoded body) (counted : lines.length ≤ chunks)
    (fits : decoded.length ≤ room) (starts : rest <+: body) (proper : rest.length < body.length) :
    ∃ need, Continues chunks room rest need ∧ need ≤ max body.length (rest.length + 4) := by
  induction chunked generalizing rest chunks room with
  | @last line trailers isLine size complete =>
    obtain ⟨chunks, rfl⟩ : ∃ fewer, chunks = fewer + 1 := Nat.exists_eq_add_of_le' counted
    have two := two_le_trailers complete
    rcases prefix_append_cases starts with ⟨inside, short⟩ | ⟨part, rfl, behind⟩
    · rw [List.length_append, length_crlf] at short
      refine ⟨_, .lastLine isLine size inside short, ?_⟩
      simp only [List.length_append, length_crlf]
      omega
    · refine ⟨_, .trailers isLine size ?_, ?_⟩
      · intro other completeToo startsToo
        have same := completeToo.unique_of_prefix complete (startsToo.trans behind) List.prefix_rfl
        have longer := startsToo.length_le
        simp only [List.length_append] at proper
        rw [same] at longer
        omega
      · simp only [List.length_append, length_crlf]
        omega
  | @chunk line payload decoded bodyBehind lines isLine size filled chunked ih =>
    obtain ⟨five, one⟩ := five_le_chunked chunked
    rw [List.length_cons] at counted
    rw [List.length_append] at fits
    obtain ⟨chunks, rfl⟩ : ∃ fewer, chunks = fewer + 2 := Nat.exists_eq_add_of_le' (by omega)
    have positive : payload.length ≠ 0 := mt List.length_eq_zero_iff.mp filled
    rcases prefix_append_cases starts with ⟨inside, short⟩ | ⟨part, rfl, behind⟩
    · rw [List.length_append, length_crlf] at short
      refine ⟨_, .sizeLine isLine size positive (by omega) inside short, ?_⟩
      simp only [List.length_append, length_crlf]
      omega
    · rcases prefix_append_cases behind with ⟨inside, short⟩ | ⟨later, rfl, behindLater⟩
      · rw [List.length_append, length_crlf] at short
        have ends : part.drop payload.length <+: crlf := by
          have dropped := List.IsPrefix.drop inside payload.length
          rw [List.drop_left] at dropped
          exact dropped
        refine ⟨_, .payload isLine size positive (by omega) short ends, ?_⟩
        simp only [List.length_append, length_crlf]
        omega
      · simp only [List.length_append] at proper
        obtain ⟨need, continues, small⟩ := @ih later (chunks + 1) (room - payload.length) (by omega) (by omega) behindLater
          (by omega)
        refine ⟨_, .chunk isLine size filled (by omega) continues, ?_⟩
        simp only [List.length_append, length_crlf]
        omega

/-- What stands before the end of a chunked body is a part of one, where the body has not come whole. -/
theorem continues_iff {chunks room space : Nat} (roomy : rest.length + 4 ≤ space)
    (unended : ∀ decoded length, ¬ Decodes chunks room rest decoded length) :
    (∃ more decoded length, (rest ++ more).length ≤ space ∧ Decodes chunks room (rest ++ more) decoded length) ↔
      ∃ need, Continues chunks room rest need ∧ need ≤ space := by
  constructor
  · rintro ⟨more, decoded, length, short, lines, bytes, chunked, starts, counted, fits, rfl⟩
    have proper : rest.length < bytes.length := by
      by_contra whole
      have inside := List.prefix_of_prefix_length_le starts (List.prefix_append rest more) (by omega)
      exact unended decoded bytes.length ⟨lines, bytes, chunked, inside, counted, fits, rfl⟩
    have inside := List.prefix_of_prefix_length_le (List.prefix_append rest more) starts proper.le
    obtain ⟨need, continues, small⟩ := continues_of_prefix chunked counted fits inside proper
    have length := starts.length_le
    exact ⟨need, continues, by omega⟩
  · rintro ⟨need, continues, small⟩
    obtain ⟨more, decoded, length, short, decodes⟩ := continues.completes
    exact ⟨more, decoded, length, by omega, decodes⟩

end Parts

end OpenShell.Sandbox.Inference
