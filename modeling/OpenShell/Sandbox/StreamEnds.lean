import OpenShell.Sandbox.InferenceRouting

namespace OpenShell.Sandbox.Inference

open Text

/-! How a streamed response ends, and what of it the client can tell. -/

/-- What waiting for the next chunk gives. -/
inductive NextChunk where
  | chunk (bytes : List UInt8)
  | done
  | failed
  | idle

/-- The loop that passes the chunks on, and the terminator behind it, whichever way it is left. -/
def streamLoop (totalBytes : Nat) : List NextChunk → List UInt8
  | .chunk bytes :: results =>
    if maxStreamingBody < totalBytes + bytes.length then formatChunkTerminator
    else formatChunk bytes ++ streamLoop (totalBytes + bytes.length) results
  | _ => formatChunkTerminator

inductive StreamEnd where
  | done
  | failed
  | idle
deriving DecidableEq

def StreamEnd.result : StreamEnd → NextChunk
  | .done => .done
  | .failed => .failed
  | .idle => .idle

/-- The chunks that come before the body ends, fails or falls idle. -/
structure StreamRun where
  chunks : List (List UInt8)
  ending : StreamEnd

def StreamRun.results (run : StreamRun) : List NextChunk := run.chunks.map .chunk ++ [run.ending.result]

/-- What the upstream may send as its body: more may come behind a failure or a pause, and nothing behind the end. -/
def StreamRun.MaySend (run : StreamRun) (body : List UInt8) : Prop :=
  match run.ending with
  | .done => body = run.chunks.flatten
  | .failed | .idle => run.chunks.flatten <+: body

theorem streamLoop_results (totalBytes : Nat) (chunks : List (List UInt8)) (ending : StreamEnd) :
    streamLoop totalBytes (chunks.map .chunk ++ [ending.result]) = streamChunks totalBytes chunks ++ formatChunkTerminator := by
  induction chunks generalizing totalBytes with
  | nil => cases ending <;> rfl
  | cons chunk chunks ih =>
    rw [List.map_cons, List.cons_append, streamLoop, streamChunks]
    split
    · rfl
    · rw [ih, List.append_assoc]

/-- The loop writes what is written for the chunks of the response. -/
theorem streamLoop_run (run : StreamRun) : streamLoop 0 run.results = streamBody run.chunks :=
  streamLoop_results 0 run.chunks run.ending

/-- Behind the header of a response from upstream stands what the loop writes. -/
theorem written_behind_header {ctx : InferenceContext} {request : ParsedHttpRequest} {call : RouterCall}
    {response : StreamedResponse} (run : StreamRun) (called : (routeInferenceRequest ctx request).call = some call)
    (answered : ctx.router call = .ok response) (chunks : response.chunks = run.chunks) :
    (routeInferenceRequest ctx request).written =
      formatHttpResponseHeader response.status (sanitizeInferenceResponseHeaders response.headers) ++
        streamLoop 0 run.results := by
  rw [streamLoop_run, ← chunks]
  unfold routeInferenceRequest at called ⊢
  dsimp only at called ⊢
  revert called
  cases detectInferencePattern request.method (normalizeInferencePath request.path) ctx.patterns with
  | none =>
    intro called
    cases called
  | some pattern =>
    cases ctx.hasRoutes with
    | false =>
      intro called
      cases called
    | true =>
      simp only [Bool.not_true, Bool.false_eq_true, if_false]
      intro called
      split at called
      · rename_i routed
        cases called
        cases answered.symm.trans routed
        rfl
      · rename_i routed
        cases called
        cases answered.symm.trans routed

/-! The chunks that are passed on. -/

section Passed

/-- The chunks before the one that leads over the limit. -/
def passedChunks (totalBytes : Nat) : List (List UInt8) → List (List UInt8)
  | [] => []
  | chunk :: chunks =>
    if maxStreamingBody < totalBytes + chunk.length then []
    else chunk :: passedChunks (totalBytes + chunk.length) chunks

variable {totalBytes : Nat} {chunks : List (List UInt8)}

theorem streamChunks_passed : streamChunks totalBytes chunks = (passedChunks totalBytes chunks).flatMap formatChunk := by
  induction chunks generalizing totalBytes with
  | nil => rfl
  | cons chunk chunks ih =>
    rw [streamChunks, passedChunks]
    split
    · rfl
    · rw [ih, List.flatMap_cons]

theorem passedChunks_small : ∀ chunk ∈ passedChunks totalBytes chunks, chunk.length < 2 ^ 64 := by
  induction chunks generalizing totalBytes with
  | nil =>
    intro chunk member
    cases member
  | cons chunk chunks ih =>
    rw [passedChunks]
    split
    · intro other member
      cases member
    · rename_i within
      intro other member
      rcases List.mem_cons.mp member with rfl | later
      · unfold maxStreamingBody at within
        omega
      · exact ih other later

theorem passedChunks_prefix : passedChunks totalBytes chunks <+: chunks := by
  induction chunks generalizing totalBytes with
  | nil => exact List.prefix_rfl
  | cons chunk chunks ih =>
    rw [passedChunks]
    split
    · exact List.nil_prefix
    · exact List.cons_prefix_cons.mpr ⟨rfl, ih⟩

/-- All bytes are passed on exactly within the limit. -/
theorem passedChunks_whole_iff (start : totalBytes ≤ maxStreamingBody) :
    (passedChunks totalBytes chunks).flatten = chunks.flatten ↔ totalBytes + chunks.flatten.length ≤ maxStreamingBody := by
  induction chunks generalizing totalBytes with
  | nil => simpa [passedChunks] using start
  | cons chunk chunks ih =>
    rw [passedChunks, List.flatten_cons, List.length_append]
    split
    · rename_i beyond
      constructor
      · intro whole
        have lengths := congrArg List.length whole
        rw [List.flatten_nil, List.length_nil, List.length_append] at lengths
        omega
      · intro within
        omega
    · rename_i within
      rw [List.flatten_cons, List.append_cancel_left_eq, ih (by omega), Nat.add_assoc]

end Passed

/-! What the client makes of it. -/

/-- A complete message is the whole body of the upstream, whatever body the run may belong to. -/
def StreamRun.Untruncated (run : StreamRun) : Prop :=
  ∀ sent, run.MaySend sent → ∀ lines body, ChunkedAs lines body (streamLoop 0 run.results) → body = sent

theorem StreamRun.maySend_more {run : StreamRun} (cut : run.ending ≠ .done) (more : List UInt8) :
    run.MaySend (run.chunks.flatten ++ more) := by
  unfold StreamRun.MaySend
  cases ending : run.ending with
  | done => exact absurd ending cut
  | failed => exact List.prefix_append _ _
  | idle => exact List.prefix_append _ _

/-- Nothing is cut off silently exactly if the body came to its end within the limit, or an empty chunk spoils the
message. -/
theorem untruncated_iff (run : StreamRun) :
    run.Untruncated ↔
      [] ∈ passedChunks 0 run.chunks ∨ run.ending = .done ∧ run.chunks.flatten.length ≤ maxStreamingBody := by
  have written : streamLoop 0 run.results = (passedChunks 0 run.chunks).flatMap formatChunk ++ formatChunkTerminator := by
    rw [streamLoop_run, streamBody, streamChunks_passed]
  have whole : (passedChunks 0 run.chunks).flatten = run.chunks.flatten ↔ run.chunks.flatten.length ≤ maxStreamingBody := by
    rw [passedChunks_whole_iff (Nat.zero_le _), Nat.zero_add]
  unfold StreamRun.Untruncated
  rw [written]
  by_cases empty : [] ∈ passedChunks 0 run.chunks
  · constructor
    · intro _
      exact .inl empty
    · intro _ sent may lines body message
      exact absurd message (no_message passedChunks_small empty)
  · rw [or_iff_right empty]
    obtain ⟨lines, message⟩ := chunkedAs_stream empty passedChunks_small
    constructor
    · intro untruncated
      have finished : run.ending = .done := by
        by_contra cut
        -- behind a failure the upstream may have had one more byte
        have all := untruncated _ (run.maySend_more cut [0]) lines _ message
        have lengths := congrArg List.length all
        have begins : passedChunks 0 run.chunks <+: run.chunks := passedChunks_prefix
        have fewer := begins.flatten.length_le
        rw [List.length_append, List.length_singleton] at lengths
        omega
      have all := untruncated run.chunks.flatten (by rw [StreamRun.MaySend, finished]) lines _ message
      exact ⟨finished, whole.mp all⟩
    · intro finished sent may lines body message
      rw [StreamRun.MaySend, finished.1] at may
      rw [message_decoded passedChunks_small empty message, whole.mpr finished.2, may]

/-- The upstream fails behind five bytes of its body, and the client is sent them as the whole. -/
theorem failure_not_shown : ¬∀ run : StreamRun, run.Untruncated := by
  intro untruncated
  have cut := untruncated ⟨[utf8Encode "hello".toList], .failed⟩
  obtain ⟨lines, message⟩ := @chunkedAs_stream [utf8Encode "hello".toList] (by decide +kernel) (by decide +kernel)
  have all := cut (utf8Encode "hello world".toList) (by
    show _ <+: _
    decide +kernel) lines _ message
  revert all
  decide +kernel

end OpenShell.Sandbox.Inference
