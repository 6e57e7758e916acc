import OpenShell.Sandbox.InferenceBodies
import OpenShell.Sandbox.SizeLines

namespace OpenShell.Sandbox.Inference

open Text

/-! Chunked bodies as a client writes them, and what the parser makes of them. -/

/-- A chunk that carries data. -/
structure DataChunk where
  payload : List UInt8
  filled : payload ≠ []
  line : SizeLine payload.length

def DataChunk.bytes (chunk : DataChunk) : List UInt8 := chunk.line.bytes ++ crlf ++ (chunk.payload ++ crlf)

/-- The line of a trailer. -/
structure TrailerLine where
  line : List UInt8
  filled : line ≠ []
  isLine : IsLine line

def trailerBytes (trailers : List TrailerLine) : List UInt8 :=
  (trailers.flatMap fun trailer => trailer.line ++ crlf) ++ crlf

def encodeChunked (chunks : List DataChunk) (last : SizeLine 0) (trailers : List TrailerLine) : List UInt8 :=
  chunks.flatMap DataChunk.bytes ++ (last.bytes ++ crlf ++ trailerBytes trailers)

theorem trailers_trailerBytes (trailers : List TrailerLine) : Trailers (trailerBytes trailers) := by
  induction trailers with
  | nil => exact .last
  | cons trailer trailers ih =>
    have written : trailerBytes (trailer :: trailers) = trailer.line ++ crlf ++ trailerBytes trailers := by
      rw [trailerBytes, List.flatMap_cons, List.append_assoc]
      rfl
    rw [written]
    exact .line trailer.isLine trailer.filled ih

section Chunks

variable {chunks : List DataChunk} {last : SizeLine 0} {trailers : List TrailerLine}

/-- One size line for each chunk, and one more for the end. -/
theorem chunkedAs_encode (small : (chunks.flatMap DataChunk.payload).length < 2 ^ 64) :
    ∃ lines, lines.length = chunks.length + 1 ∧
      ChunkedAs lines (chunks.flatMap DataChunk.payload) (encodeChunked chunks last trailers) := by
  induction chunks with
  | nil => exact ⟨_, rfl, .last last.isLine_bytes (last.chunkSize_bytes (by decide)) (trailers_trailerBytes trailers)⟩
  | cons chunk chunks ih =>
    rw [List.flatMap_cons, List.length_append] at small
    obtain ⟨lines, counted, chunked⟩ := ih (by omega)
    have written : encodeChunked (chunk :: chunks) last trailers =
        chunk.line.bytes ++ crlf ++ (chunk.payload ++ crlf ++ encodeChunked chunks last trailers) := by
      simp only [encodeChunked, List.flatMap_cons, DataChunk.bytes, List.append_assoc]
    rw [written, List.flatMap_cons]
    exact ⟨_, by rw [List.length_cons, counted, List.length_cons],
      .chunk chunk.line.isLine_bytes (chunk.line.chunkSize_bytes (by omega)) chunk.filled chunked⟩

/-- A body within the limit of its bytes is decoded exactly if its chunks are fewer than the limit of chunks: the
terminator counts as one. -/
theorem encoded_parsed_iff (overflowChecks : Bool) (chunks : List DataChunk) (last : SizeLine 0)
    (trailers : List TrailerLine) (before behind : List UInt8)
    (bounded : (before ++ (encodeChunked chunks last trailers ++ behind)).length ≤ maxSlice)
    (fits : (chunks.flatMap DataChunk.payload).length ≤ maxChunkedBody) :
    parseChunkedBody overflowChecks (before ++ (encodeChunked chunks last trailers ++ behind)) limits before.length =
        .ok (chunks.flatMap DataChunk.payload, before.length + (encodeChunked chunks last trailers).length) ↔
      chunks.length < maxChunkCount := by
  have small : (chunks.flatMap DataChunk.payload).length < 2 ^ 64 := fits.trans_lt (by decide)
  obtain ⟨lines, counted, chunked⟩ := @chunkedAs_encode chunks last trailers small
  rw [parseChunkedBody_eq_ok_iff overflowChecks bounded, List.drop_left]
  constructor
  · rintro ⟨-, length, same, others, bytes, chunkedToo, starts, within, -, rfl⟩
    obtain ⟨rfl, -, -⟩ := chunked.unique_of_prefix chunkedToo (List.prefix_append _ _) starts
    have limit : limits.chunkCount = maxChunkCount := rfl
    omega
  · intro fewer
    refine ⟨by rw [List.length_append]; omega, _, rfl, lines, _, chunked, List.prefix_append _ _, ?_, fits, rfl⟩
    rw [counted]
    exact fewer

def namedByte : DataChunk where
  payload := [0x58]
  filled := by decide
  line :=
    { digits := Nat.toDigits 16 1
      extension := ';' :: "name=value".toList
      hexadecimal := hexadecimal_toDigits 1
      value := rfl
      begins := fun c first => by cases first; rfl
      isLine := by unfold IsLine; decide +kernel }

theorem length_replicated (count : Nat) : (List.replicate count namedByte).flatMap DataChunk.payload =
      List.replicate count 0x58 ∧
    (encodeChunked (List.replicate count namedByte) (plainLine 0) []).length = count * 17 + 5 := by
  have each : namedByte.bytes.length = 17 := by decide
  have terminator : ((plainLine 0).bytes ++ crlf ++ trailerBytes []).length = 5 := by decide
  constructor
  · simp [List.flatMap_replicate, namedByte]
  · rw [encodeChunked, List.length_append, terminator, List.length_flatMap, List.map_replicate, each]
    simp

/-- As many chunks as there may be are too many. -/
theorem limit_of_chunks_refused : ¬∀ (overflowChecks : Bool) (chunks : List DataChunk) (last : SizeLine 0)
    (trailers : List TrailerLine) (before behind : List UInt8),
    (before ++ (encodeChunked chunks last trailers ++ behind)).length ≤ maxSlice →
      (chunks.flatMap DataChunk.payload).length ≤ maxChunkedBody → chunks.length ≤ maxChunkCount →
        parseChunkedBody overflowChecks (before ++ (encodeChunked chunks last trailers ++ behind)) limits before.length =
          .ok (chunks.flatMap DataChunk.payload, before.length + (encodeChunked chunks last trailers).length) := by
  intro decoded
  obtain ⟨payload, length⟩ := length_replicated maxChunkCount
  have bounded : ([] ++ (encodeChunked (List.replicate maxChunkCount namedByte) (plainLine 0) [] ++ [])).length ≤
      maxSlice := by
    rw [List.nil_append, List.append_nil, length]
    decide
  have fits : ((List.replicate maxChunkCount namedByte).flatMap DataChunk.payload).length ≤ maxChunkedBody := by
    rw [payload, List.length_replicate]
    decide
  have parsed := decoded true (.replicate maxChunkCount namedByte) (plainLine 0) [] [] [] bounded fits
    (by rw [List.length_replicate])
  have fewer := (encoded_parsed_iff true _ _ _ _ _ bounded fits).mp parsed
  rw [List.length_replicate] at fewer
  exact lt_irrefl _ fewer

theorem namedByte_decoded : parseChunkedBody true
      ([] ++ (encodeChunked [namedByte, namedByte] (plainLine 0) [⟨[0x41], by decide, rfl⟩] ++ [0x47])) limits 0 =
    .ok ([0x58, 0x58], 42) :=
  (encoded_parsed_iff true [namedByte, namedByte] (plainLine 0) [⟨[0x41], by decide, rfl⟩] [] [0x47]
    (by decide +kernel) (by decide)).mpr (by decide)

end Chunks

end OpenShell.Sandbox.Inference
