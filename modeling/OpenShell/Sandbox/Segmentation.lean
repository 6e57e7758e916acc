import OpenShell.Sandbox.InferenceBodies

namespace OpenShell.Sandbox

open Text Streams Results

/-! Where the relay of a chunked body finds its end, with the positions counted from the start of the stream. -/

def relayTrailersEnd : Nat → Cursor → Except String Nat
  | 0, _ => .error "Chunked body ended before trailer terminator"
  | fuel + 1, cursor =>
    match cursor.readLine "Chunked body ended before trailer terminator" with
    | (.error error, _, _) => .error error
    | (.ok trailerLine, _, next) => if trailerLine.isEmpty then .ok next.pos else relayTrailersEnd fuel next

/-- The relay with the bytes counted that it has dropped, and with the dropping left out where it does not drain. -/
def relayChunksEnd (drains : Bool) : Nat → Nat → Cursor → Except String Nat
  | 0, _, _ => .error "Chunked body ended before chunk-size line"
  | fuel + 1, dropped, cursor =>
    match cursor.readLine "Chunked body ended before chunk-size line" with
    | (.error error, _, _) => .error error
    | (.ok sizeLine, _, next) =>
      match chunkSize sizeLine with
      | .error error => .error error
      | .ok size =>
        if size = 0 then
          (relayTrailersEnd (next.parseBuf.length + next.reader.bytes.length + 1) next).map (dropped + ·)
        else
          match next.readPayload size with
          | (.error error, _, _) => .error error
          | (.ok (), _, last) =>
            if drains && relayBufSize * 4 < last.pos then relayChunksEnd drains fuel (dropped + last.pos) last.drain
            else relayChunksEnd drains fuel dropped last

def relayChunkedEnd (drains : Bool) (reader : ByteStream) (alreadyForwarded : List UInt8) : Except String Nat :=
  relayChunksEnd drains (alreadyForwarded.length + reader.bytes.length + 1) 0 ⟨alreadyForwarded, 0, reader⟩

/-! The relay ends there. -/

section Result

theorem relayTrailersEnd_result (fuel : Nat) (cursor : Cursor) :
    (relayTrailersFor fuel cursor).result = (relayTrailersEnd fuel cursor).map fun _ => () := by
  induction fuel generalizing cursor with
  | zero => rfl
  | succ fuel ih =>
    unfold relayTrailersFor relayTrailersEnd
    cases ran : cursor.readLine "Chunked body ended before trailer terminator" with
    | mk result later =>
      obtain ⟨taken, next⟩ := later
      cases result with
      | error error => rfl
      | ok line =>
        simp only
        split
        · rfl
        · exact ih next

theorem relayChunksEnd_result (fuel dropped : Nat) (cursor : Cursor) :
    (relayChunksFor fuel cursor).result = (relayChunksEnd true fuel dropped cursor).map fun _ => () := by
  induction fuel generalizing cursor dropped with
  | zero => rfl
  | succ fuel ih =>
    unfold relayChunksFor relayChunksEnd
    cases ran : cursor.readLine "Chunked body ended before chunk-size line" with
    | mk result later =>
      obtain ⟨taken, next⟩ := later
      cases result with
      | error error => rfl
      | ok line =>
        simp only
        cases chunkSize line with
        | error error => rfl
        | ok size =>
          simp only
          by_cases zero : size = 0
          · rw [if_pos zero, if_pos zero, Copied.after, relayTrailers, relayTrailersEnd_result]
            cases relayTrailersEnd (next.parseBuf.length + next.reader.bytes.length + 1) next <;> rfl
          · rw [if_neg zero, if_neg zero]
            cases read : next.readPayload size with
            | mk result later =>
              obtain ⟨payload, last⟩ := later
              cases result with
              | error error => rfl
              | ok done =>
                simp only [Copied.after, Bool.true_and, decide_eq_true_eq]
                by_cases full : relayBufSize * 4 < last.pos
                · rw [if_pos full]
                  exact ih _ _
                · rw [if_neg full, Cursor.drain, if_neg full]
                  exact ih _ _

theorem relayChunkedEnd_result (reader : ByteStream) (overflow : List UInt8) :
    (relayChunked reader overflow).result = (relayChunkedEnd true reader overflow).map fun _ => () :=
  relayChunksEnd_result _ 0 _

end Result

/-! A body is found where the stream begins with one, and its end is the end of that. -/

namespace Cursor

variable {cursor next : Cursor} {taken : List UInt8}

theorem readLine_pos {closed : String} {line : List UInt8} (valid : cursor.Valid)
    (ran : cursor.readLine closed = (.ok line, taken, next)) : next.pos = cursor.pos + (line.length + 2) := by
  obtain ⟨_, parts, _⟩ := readLine_line valid ran
  unfold readLine at ran
  split at ran
  · rename_i lineEnd block reader gathered
    cases ran
    have reads := ByteStream.gather_reads gathered
    have found := ByteStream.gather_found gathered
    obtain ⟨offset, there, rfl⟩ := Option.map_eq_some_iff.mp found
    have reached := position_reaches there
    simp only [List.length_drop, length_crlf, List.length_take] at reached ⊢
    omega
  · cases ran
  · cases ran

theorem readPayload_pos {size : Nat} (ran : cursor.readPayload size = (.ok (), taken, next)) :
    next.pos = cursor.pos + (size + 2) := by
  unfold readPayload at ran
  simp only at ran
  split at ran
  · cases ran
  · split at ran
    · split at ran
      · cases ran
      · cases ran
        rfl
    · cases ran
    · cases ran

end Cursor

section Position

variable {cursor : Cursor} {body : List UInt8} {drains : Bool} {fuel dropped stop : Nat}

theorem trailers_of_end (valid : cursor.Valid) (ended : relayTrailersEnd fuel cursor = .ok stop) :
    ∃ trailers, Trailers trailers ∧ trailers <+: cursor.rest ∧ stop = cursor.pos + trailers.length := by
  induction fuel generalizing cursor with
  | zero => cases ended
  | succ fuel ih =>
    unfold relayTrailersEnd at ended
    split at ended
    · cases ended
    · rename_i line taken next ran
      obtain ⟨isLine, split_rest, valid_next⟩ := Cursor.readLine_line valid ran
      have moved := Cursor.readLine_pos valid ran
      rw [split_rest]
      split at ended
      · rename_i empty
        rw [List.isEmpty_iff.mp empty] at moved ⊢
        cases ended
        exact ⟨crlf, .last, List.prefix_append _ _, moved⟩
      · rename_i filled
        obtain ⟨trailers, complete, starts, same⟩ := ih valid_next ended
        refine ⟨line ++ crlf ++ trailers, .line isLine ?_ complete, (List.prefix_append_right_inj _).mpr starts, ?_⟩
        · rintro rfl
          exact filled rfl
        · rw [same, moved, List.length_append, List.length_append, length_crlf, Nat.add_assoc]

theorem end_of_trailers (complete : Trailers body) (valid : cursor.Valid) {behind : List UInt8}
    (starts : cursor.rest = body ++ behind) (enough : body.length ≤ fuel) : ∃ stop, relayTrailersEnd fuel cursor = .ok stop := by
  obtain ⟨taken, next, relayed, _⟩ := relayTrailersFor_ok complete valid starts enough
  have same := relayTrailersEnd_result fuel cursor
  rw [relayed] at same
  cases ended : relayTrailersEnd fuel cursor with
  | ok stop => exact ⟨stop, rfl⟩
  | error error =>
    rw [ended] at same
    cases same

theorem chunked_of_end (valid : cursor.Valid) (ended : relayChunksEnd drains fuel dropped cursor = .ok stop) :
    ∃ body, ChunkedBody body ∧ body <+: cursor.rest ∧ stop = dropped + cursor.pos + body.length := by
  induction fuel generalizing cursor dropped with
  | zero => cases ended
  | succ fuel ih =>
    unfold relayChunksEnd at ended
    split at ended
    · cases ended
    · rename_i line taken next ran
      obtain ⟨isLine, split_rest, valid_next⟩ := Cursor.readLine_line valid ran
      have moved := Cursor.readLine_pos valid ran
      rw [split_rest]
      split at ended
      · cases ended
      · rename_i size sized
        split at ended
        · rename_i zero
          cases found : relayTrailersEnd (next.parseBuf.length + next.reader.bytes.length + 1) next with
          | error error =>
            rw [found] at ended
            cases ended
          | ok trailersEnd =>
            rw [found] at ended
            cases ended
            obtain ⟨trailers, complete, starts, rfl⟩ := trailers_of_end valid_next found
            refine ⟨_, .last isLine (zero ▸ sized) complete, (List.prefix_append_right_inj _).mpr starts, ?_⟩
            simp only [moved, List.length_append, length_crlf]
            omega
        · rename_i not_zero
          split at ended
          · cases ended
          · rename_i brought last read
            obtain ⟨payload, length, split_payload, valid_last⟩ := Cursor.readPayload_payload valid_next read
            have moved_payload := Cursor.readPayload_pos read
            obtain ⟨body, chunked, starts, same⟩ : ∃ body, ChunkedBody body ∧ body <+: last.rest ∧
                stop = dropped + last.pos + body.length := by
              split at ended
              · rename_i full
                have drained := Cursor.takes_drain valid_last
                obtain ⟨body, chunked, starts, same⟩ := ih drained.valid ended
                rw [drained.rest_eq] at starts
                rw [Cursor.drain, if_pos (by simpa using (Bool.and_eq_true_iff.mp full).2)] at same
                exact ⟨body, chunked, starts, same⟩
              · exact ih valid_last ended
            rw [split_payload]
            refine ⟨_, .chunk isLine (length ▸ sized) ?_ chunked, ?_, ?_⟩
            · rintro rfl
              exact not_zero length.symm
            · exact (List.prefix_append_right_inj _).mpr ((List.prefix_append_right_inj _).mpr starts)
            · simp only [List.length_append, length_crlf]
              omega

theorem end_of_chunked (chunked : ChunkedBody body) (valid : cursor.Valid) {behind : List UInt8}
    (starts : cursor.rest = body ++ behind) (enough : body.length ≤ fuel) :
    ∃ stop, relayChunksEnd drains fuel dropped cursor = .ok stop := by
  induction chunked generalizing cursor fuel dropped with
  | @last line trailers isLine size complete =>
    cases fuel with
    | zero =>
      rw [List.length_append, List.length_append, length_crlf] at enough
      omega
    | succ fuel =>
      obtain ⟨taken, next, ran, takes, behind_line⟩ :=
        Cursor.readLine_behind "Chunked body ended before chunk-size line" valid isLine starts
      have enough_next : trailers.length ≤ next.parseBuf.length + next.reader.bytes.length + 1 := by
        have length := congrArg List.length behind_line
        rw [Cursor.rest, List.length_append, List.length_append, List.length_drop] at length
        omega
      obtain ⟨stop, ended⟩ := end_of_trailers complete takes.valid behind_line enough_next
      exact ⟨dropped + stop, by simp only [relayChunksEnd, ran, size, if_true, ended, Except.map]⟩
  | @chunk line payload rest isLine size filled chunked ih =>
    cases fuel with
    | zero =>
      rw [List.length_append, List.length_append, length_crlf] at enough
      omega
    | succ fuel =>
      obtain ⟨taken, next, ran, takes, behind_line⟩ :=
        Cursor.readLine_behind "Chunked body ended before chunk-size line" valid isLine starts
      obtain ⟨brought, last, read, takes_payload, behind_chunk⟩ := Cursor.readPayload_behind takes.valid behind_line
      simp only [List.length_append, length_crlf] at enough
      have not_zero : payload.length ≠ 0 := fun zero => filled (List.length_eq_zero_iff.mp zero)
      simp only [relayChunksEnd, ran, size, if_neg not_zero, read]
      split
      · have drained := Cursor.takes_drain takes_payload.valid
        rw [← List.drop_zero (l := last.rest), ← drained.rest_eq] at behind_chunk
        exact ih drained.valid behind_chunk (by omega)
      · exact ih takes_payload.valid behind_chunk (by omega)

theorem relayChunksEnd_eq_ok_iff (valid : cursor.Valid) (enough : cursor.rest.length ≤ fuel) :
    relayChunksEnd drains fuel dropped cursor = .ok stop ↔
      ∃ body, ChunkedBody body ∧ body <+: cursor.rest ∧ stop = dropped + cursor.pos + body.length := by
  refine ⟨chunked_of_end valid, ?_⟩
  rintro ⟨body, chunked, starts, rfl⟩
  obtain ⟨behind, whole⟩ := starts
  have short : body.length ≤ fuel := by
    rw [← whole, List.length_append] at enough
    omega
  obtain ⟨stop, ended⟩ := @end_of_chunked cursor body drains fuel dropped chunked valid behind whole.symm short
  obtain ⟨other, chunkedToo, ⟨behindToo, wholeToo⟩, rfl⟩ := chunked_of_end valid ended
  rw [ended, chunked.unique chunkedToo (whole.trans wholeToo.symm)]

end Position

variable {reader : ByteStream} {overflow : List UInt8} {drains : Bool} {stop : Nat}

theorem relayChunkedEnd_eq_ok_iff (bounded : (overflow ++ reader.bytes).length < 2 ^ 64) :
    relayChunkedEnd drains reader overflow = .ok stop ↔
      ∃ body, ChunkedBody body ∧ body <+: overflow ++ reader.bytes ∧ stop = body.length := by
  have whole : Cursor.rest ⟨overflow, 0, reader⟩ = overflow ++ reader.bytes := rfl
  unfold relayChunkedEnd
  rw [relayChunksEnd_eq_ok_iff (valid_start bounded) (by rw [whole, List.length_append]; omega), whole]
  simp only [Nat.zero_add]

/-- The end of the body depends on the bytes alone: not on how they come in, nor on what the relay drops of them. -/
theorem relayChunkedEnd_congr {other : ByteStream} {otherOverflow : List UInt8} {drainsToo : Bool}
    (bounded : (overflow ++ reader.bytes).length < 2 ^ 64) (same : otherOverflow ++ other.bytes = overflow ++ reader.bytes) :
    (relayChunkedEnd drains reader overflow).toOption = (relayChunkedEnd drainsToo other otherOverflow).toOption := by
  apply toOption_congr
  intro stop
  rw [relayChunkedEnd_eq_ok_iff bounded, relayChunkedEnd_eq_ok_iff (by rw [same]; exact bounded), same]

theorem relayChunkedEnd_of_parse {overflowChecks : Bool} {buf decoded : List UInt8} {limits : Inference.Limits}
    {start consumed : Nat} (bounded : buf.length ≤ Inference.maxSlice) (same : buf.drop start = overflow ++ reader.bytes)
    (parsed : Inference.parseChunkedBody overflowChecks buf limits start = .ok (decoded, consumed)) :
    ∃ stop, relayChunkedEnd drains reader overflow = .ok stop ∧ consumed = start + stop := by
  obtain ⟨_, length, rfl, lines, body, chunked, starts, _, _, rfl⟩ :=
    (Inference.parseChunkedBody_eq_ok_iff overflowChecks bounded).mp parsed
  refine ⟨body.length, ?_, rfl⟩
  rw [same] at starts
  refine (relayChunkedEnd_eq_ok_iff ?_).mpr ⟨body, chunked.chunkedBody, starts, rfl⟩
  have shorter := congrArg List.length same
  unfold Inference.maxSlice at bounded
  rw [List.length_drop] at shorter
  omega

/-- Two ways of delivering the same bytes, and a buffer that holds them, see the body end at the same place. -/
theorem relayChunked_segmentation (first second : ByteStream) (overflow other : List UInt8)
    (same : other ++ second.bytes = overflow ++ first.bytes) (bounded : (overflow ++ first.bytes).length < 2 ^ 64) :
    ((relayChunked first overflow).result = (relayChunkedEnd true first overflow).map fun _ => ()) ∧
      (relayChunked first overflow).result.toOption = (relayChunked second other).result.toOption ∧
      (relayChunkedEnd true first overflow).toOption = (relayChunkedEnd true second other).toOption ∧
      (relayChunkedEnd false first overflow).toOption = (relayChunkedEnd true first overflow).toOption ∧
      ∀ overflowChecks buf start decoded consumed, buf.length ≤ Inference.maxSlice →
        buf.drop start = overflow ++ first.bytes →
        Inference.parseChunkedBody overflowChecks buf Inference.limits start = .ok (decoded, consumed) →
        ∃ stop, relayChunkedEnd true first overflow = .ok stop ∧ consumed = start + stop := by
  have outcome : ∀ result : Except String Nat, (result.map fun _ => ()).toOption = result.toOption.map fun _ => () := by
    intro result
    cases result <;> rfl
  have ends := @relayChunkedEnd_congr first overflow true second other true bounded same
  refine ⟨relayChunkedEnd_result first overflow, ?_, ends, relayChunkedEnd_congr bounded rfl, ?_⟩
  · rw [relayChunkedEnd_result, relayChunkedEnd_result, outcome, outcome, ends]
  · intro overflowChecks buf start decoded consumed small held parsed
    exact relayChunkedEnd_of_parse small held parsed

def twoChunks : List UInt8 := utf8Encode "5;x=1\r\nhello\r\n0\r\nT: 1\r\n\r\n".toList

def atOnce : ByteStream where
  segments := [twoChunks]
  nonempty := by decide +kernel
  bounded := by decide +kernel

def byteByByte : ByteStream where
  segments := (twoChunks.drop 3).map ([·])
  nonempty := by decide +kernel
  bounded := by decide +kernel

theorem byteByByte_segmentation : relayChunkedEnd true atOnce [] = .ok twoChunks.length ∧
    (relayChunkedEnd true byteByByte (twoChunks.take 3)).toOption = some twoChunks.length := by
  have ended : relayChunkedEnd true atOnce [] = .ok twoChunks.length := by decide +kernel
  obtain ⟨_, _, ends, _⟩ := relayChunked_segmentation atOnce byteByByte [] (twoChunks.take 3) (by decide +kernel)
    (by decide +kernel)
  rw [ended] at ends
  exact ⟨ended, ends.symm⟩

end OpenShell.Sandbox
