import OpenShell.Sandbox.InferenceBodies
import OpenShell.Sandbox.SizeLines

namespace OpenShell.Sandbox.Inference

open Text Results

/-! Responses are streamed to the client in the chunked coding. -/

/-- The chunks that are written, with the bytes counted that came before; the chunk that leads over the limit and those
    behind it are left out. -/
def streamChunks (totalBytes : Nat) : List (List UInt8) → List UInt8
  | [] => []
  | chunk :: chunks =>
    if maxStreamingBody < totalBytes + chunk.length then []
    else formatChunk chunk ++ streamChunks (totalBytes + chunk.length) chunks

/-- The body that is written for the chunks that the upstream sends before it ends, fails or falls idle. -/
def streamBody (chunks : List (List UInt8)) : List UInt8 := streamChunks 0 chunks ++ formatChunkTerminator

theorem streamChunks_within {totalBytes : Nat} {chunks : List (List UInt8)}
    (within : totalBytes + chunks.flatten.length ≤ maxStreamingBody) :
    streamChunks totalBytes chunks = chunks.flatMap formatChunk := by
  induction chunks generalizing totalBytes with
  | nil => rfl
  | cons chunk chunks ih =>
    rw [List.flatten_cons, List.length_append] at within
    rw [streamChunks, if_neg (by omega), ih (by omega), List.flatMap_cons]

/-! What a decoder makes of a streamed body. -/

section Streams

variable {chunks : List (List UInt8)}

theorem formatChunk_nil : formatChunk [] = formatChunkTerminator := by decide

theorem chunkedAs_stream (filled : [] ∉ chunks) (small : ∀ chunk ∈ chunks, chunk.length < 2 ^ 64) :
    ∃ lines, ChunkedAs lines chunks.flatten (chunks.flatMap formatChunk ++ formatChunkTerminator) := by
  induction chunks with
  | nil => exact ⟨_, chunkedAs_terminator⟩
  | cons chunk chunks ih =>
    obtain ⟨lines, chunked⟩ := ih (fun member => filled (List.mem_cons_of_mem _ member))
      fun other member => small other (List.mem_cons_of_mem _ member)
    have isLine := (plainLine chunk.length).isLine_bytes
    have size := (plainLine chunk.length).chunkSize_bytes (small chunk List.mem_cons_self)
    rw [plainLine_bytes] at isLine size
    have present : chunk ≠ [] := by
      rintro rfl
      exact filled List.mem_cons_self
    have written : (chunk :: chunks).flatMap formatChunk ++ formatChunkTerminator =
        utf8Encode (Nat.toDigits 16 chunk.length) ++ crlf ++
          (chunk ++ crlf ++ (chunks.flatMap formatChunk ++ formatChunkTerminator)) := by
      simp only [List.flatMap_cons, formatChunk, List.append_assoc]
    rw [List.flatten_cons, written]
    exact ⟨_, .chunk isLine size present chunked⟩

theorem message_decoded (small : ∀ chunk ∈ chunks, chunk.length < 2 ^ 64) (filled : [] ∉ chunks)
    {lines : List (List UInt8)} {body : List UInt8}
    (message : ChunkedAs lines body (chunks.flatMap formatChunk ++ formatChunkTerminator)) : body = chunks.flatten := by
  obtain ⟨_, whole⟩ := chunkedAs_stream filled small
  exact (message.unique_of_prefix whole List.prefix_rfl List.prefix_rfl).2.1

theorem no_message (small : ∀ chunk ∈ chunks, chunk.length < 2 ^ 64) (empty : [] ∈ chunks)
    {lines : List (List UInt8)} {body : List UInt8} :
    ¬ChunkedAs lines body (chunks.flatMap formatChunk ++ formatChunkTerminator) := by
  intro message
  obtain ⟨before, after, rfl, filled⟩ := List.eq_append_cons_of_mem empty
  -- the first empty chunk ends a message, with the terminator still behind it
  obtain ⟨_, early⟩ := chunkedAs_stream filled fun chunk member => small chunk (List.mem_append_left _ member)
  have starts : before.flatMap formatChunk ++ formatChunkTerminator <+:
      (before ++ [] :: after).flatMap formatChunk ++ formatChunkTerminator := by
    rw [List.flatMap_append, List.flatMap_cons, formatChunk_nil]
    simp only [List.append_assoc, List.prefix_append_right_inj]
    exact List.prefix_append _ _
  have lengths := congrArg List.length (message.unique_of_prefix early List.prefix_rfl starts).2.2
  have five : formatChunkTerminator.length = 5 := by decide
  rw [List.flatMap_append, List.flatMap_cons, formatChunk_nil] at lengths
  simp only [List.length_append, five] at lengths
  omega

/-- Limits that no body in the buffer reaches. -/
def unlimited (buf : List UInt8) : Limits := ⟨buf.length, buf.length⟩

theorem parseChunkedBody_unlimited {buf decoded : List UInt8} {consumed : Nat} (overflowChecks : Bool)
    (bounded : buf.length ≤ maxSlice) :
    parseChunkedBody overflowChecks buf (unlimited buf) 0 = .ok (decoded, consumed) ↔
      ∃ lines body, ChunkedAs lines decoded body ∧ body <+: buf ∧ body.length = consumed := by
  rw [parseChunkedBody_eq_ok_iff overflowChecks bounded]
  constructor
  · rintro ⟨_, length, rfl, lines, body, chunked, starts, _, _, rfl⟩
    exact ⟨lines, body, chunked, starts, (Nat.zero_add _).symm⟩
  · rintro ⟨lines, body, chunked, starts, rfl⟩
    have shorter := chunked.length_le
    have within := starts.length_le
    refine ⟨Nat.zero_le _, body.length, (Nat.zero_add _).symm, lines, body, chunked, starts, ?_, ?_, rfl⟩
    · exact (shorter.1.trans_le within).le
    · exact (shorter.2.trans_le within).le

/-- A streamed body is decoded to the chunks exactly if none of them is empty: an empty chunk is the terminator. -/
theorem streamBody_decoded_iff (overflowChecks : Bool) (chunks : List (List UInt8))
    (within : chunks.flatten.length ≤ maxStreamingBody) (bounded : (streamBody chunks).length ≤ maxSlice) :
    streamBody chunks = chunks.flatMap formatChunk ++ formatChunkTerminator ∧
      (parseChunkedBody overflowChecks (streamBody chunks) (unlimited (streamBody chunks)) 0 =
        .ok (chunks.flatten, (streamBody chunks).length) ↔ [] ∉ chunks) := by
  have written : streamBody chunks = chunks.flatMap formatChunk ++ formatChunkTerminator := by
    rw [streamBody, streamChunks_within (by omega)]
  have small : ∀ chunk ∈ chunks, chunk.length < 2 ^ 64 := by
    intro chunk member
    have shorter := (List.sublist_flatten_of_mem member).length_le
    unfold maxStreamingBody at within
    omega
  refine ⟨written, ?_⟩
  rw [parseChunkedBody_unlimited overflowChecks bounded]
  constructor
  · rintro ⟨lines, body, chunked, starts, length⟩ empty
    rw [starts.eq_of_length length, written] at chunked
    exact no_message small empty chunked
  · intro filled
    obtain ⟨lines, chunked⟩ := chunkedAs_stream filled small
    rw [← written] at chunked
    exact ⟨lines, streamBody chunks, chunked, List.prefix_rfl, rfl⟩

def withEmptyChunk : List (List UInt8) := [utf8Encode "he".toList, [], utf8Encode "llo".toList]

/-- The decoder takes the empty chunk for the end. -/
theorem withEmptyChunk_truncated : withEmptyChunk.flatten.length ≤ maxStreamingBody ∧
    parseChunkedBody true (streamBody withEmptyChunk) (unlimited (streamBody withEmptyChunk)) 0 =
      .ok (utf8Encode "he".toList, 12) ∧
    withEmptyChunk.flatten = utf8Encode "hello".toList ∧ (streamBody withEmptyChunk).length = 25 := by
  decide +kernel

theorem twoChunks_decoded : parseChunkedBody true (streamBody [utf8Encode "he".toList, utf8Encode "llo".toList])
      (unlimited (streamBody [utf8Encode "he".toList, utf8Encode "llo".toList])) 0 =
    .ok (utf8Encode "hello".toList, (streamBody [utf8Encode "he".toList, utf8Encode "llo".toList]).length) :=
  ((streamBody_decoded_iff true [utf8Encode "he".toList, utf8Encode "llo".toList] (by decide +kernel)
    (by decide +kernel)).2).mpr (by decide +kernel)

end Streams

end OpenShell.Sandbox.Inference
