import OpenShell.Sandbox.Chunked

namespace OpenShell.Sandbox

open Text Streams

/-! Where a header block ends depends on its own bytes only. -/

theorem headerEnd_append {buf : List UInt8} {endsAt : Nat} (ended : headerEnd buf = some endsAt) (more : List UInt8) :
    headerEnd (buf ++ more) = some endsAt ∧ endsAt ≤ buf.length ∧
      ∃ lines, buf.take endsAt = lines ++ (crlf ++ crlf) := by
  obtain ⟨offset, found, length⟩ := Option.map_eq_some_iff.mp ended
  obtain ⟨before, after, parts, size, _⟩ := position_cut found
  have whole : buf = (before ++ (crlf ++ crlf)) ++ after := by
    rw [parts, List.append_assoc before]
  have bound : endsAt = (before ++ (crlf ++ crlf)).length := by
    rw [List.length_append, show (crlf ++ crlf).length = 4 from rfl, size]
    exact length.symm
  refine ⟨?_, ?_, before, ?_⟩
  · rw [headerEnd, position_append found, Option.map_some, length]
  · have total := congrArg List.length whole
    rw [List.length_append] at total
    omega
  · rw [whole, bound, List.take_left]

theorem headerEnd_of_held {total held : List UInt8} {endsAt : Nat} (ended : headerEnd total = some endsAt)
    (part : held <+: total) (whole : endsAt ≤ held.length) : headerEnd held = some endsAt := by
  obtain ⟨offset, found, length⟩ := Option.map_eq_some_iff.mp ended
  have size : (crlf ++ crlf).length = 4 := rfl
  rw [headerEnd, position_of_prefix found part (by omega), Option.map_some, length]

theorem headerEnd_of_short {total held : List UInt8} {endsAt : Nat} (ended : headerEnd total = some endsAt)
    (part : held <+: total) (short : held.length < endsAt) : headerEnd held = none := by
  obtain ⟨offset, found, length⟩ := Option.map_eq_some_iff.mp ended
  have size : (crlf ++ crlf).length = 4 := rfl
  have missing : position (crlf ++ crlf) held = none :=
    position_of_short (by decide) found part (by omega)
  rw [headerEnd, missing, Option.map_none]

/-! Bodies. -/

/-- The whole body of a message, at the start of the bytes behind its header block. -/
inductive Framed : BodyLength → List UInt8 → List UInt8 → Prop
  | none {bytes : List UInt8} : Framed .none bytes []
  | fixed {length : Nat} {bytes : List UInt8} (present : length ≤ bytes.length) :
      Framed (.contentLength length) bytes (bytes.take length)
  | chunked {bytes body : List UInt8} (chunked : ChunkedBody body) (starts : body <+: bytes) :
      Framed .chunked bytes body

/-- What a sender may pass on as the body of a message: the body if it is there whole, and else only bytes
    that came behind the header block. -/
structure OwnBody (length : BodyLength) (bytes body : List UInt8) : Prop where
  part : body <+: bytes
  whole : ∀ framed, Framed length bytes framed → body = framed

/-- A chunked body that is there whole ends where reads of the relay's size end. -/
def EndsWithRead (length : BodyLength) (reader : ByteStream) : Prop :=
  length = .chunked → (∃ body, ChunkedBody body ∧ body <+: reader.bytes) →
    ∃ body rest, ChunkedBody body ∧ ByteStream.Reads relayBufSize reader body rest

variable {length : BodyLength} {bytes body : List UInt8} {reader : ByteStream}

theorem Framed.starts (framed : Framed length bytes body) : body <+: bytes := by
  cases framed with
  | none => exact List.nil_prefix
  | fixed present => exact List.take_prefix _ _
  | chunked _ starts => exact starts

theorem Framed.unique {other : List UInt8} (framed : Framed length bytes body)
    (others : Framed length bytes other) : body = other := by
  cases framed with
  | none => cases others; rfl
  | fixed present => cases others; rfl
  | chunked chunked starts =>
    cases others with
    | chunked chunkedOther startsOther =>
      obtain ⟨rest, split⟩ := starts
      obtain ⟨behind, splitOther⟩ := startsOther
      exact chunked.unique chunkedOther (split.trans splitOther.symm)

/-! What the relay of a body forwards. -/

structure Copied.Cuts (copied : Copied) (bytes : List UInt8) (count : Nat) : Prop where
  forwarded : copied.forwarded = bytes.take count
  left : copied.reader.bytes = bytes.drop count
  whole : copied.result = .ok () → count ≤ bytes.length

theorem relayFixedFor_cuts {fuel count : Nat} (enough : reader.bytes.length < fuel) :
    (relayFixedFor fuel reader count).Cuts reader.bytes count := by
  induction fuel generalizing reader count with
  | zero => omega
  | succ fuel ih =>
    by_cases done : count = 0
    · rw [relayFixedFor, if_pos done, done]
      exact ⟨rfl, rfl, fun _ => Nat.zero_le _⟩
    · rw [relayFixedFor, if_neg done]
      have positive : 0 < min count relayBufSize := Nat.lt_min.mpr ⟨by omega, relayBufSize_pos⟩
      have at_end (ended : ∀ block rest, reader.read (min count relayBufSize) ≠ .data block rest)
          (error : String) : (Copied.mk (.error error) reader []).Cuts reader.bytes count := by
        have empty := ByteStream.bytes_of_end ended
        refine ⟨?_, ?_, fun relayed => nomatch relayed⟩
        · rw [empty, List.take_nil]
        · rw [empty, List.drop_nil]
      split
      · rename_i block rest delivered
        obtain ⟨split_bytes, short, _⟩ := ByteStream.read_data delivered
        have shorter := ByteStream.read_shorter positive delivered
        have later : (relayFixedFor fuel rest (count - block.length)).Cuts rest.bytes (count - block.length) :=
          ih (by omega)
        have within : block.length ≤ count := short.trans (Nat.min_le_left _ _)
        rw [split_bytes]
        refine ⟨?_, ?_, fun relayed => ?_⟩
        · rw [Copied.after, later.forwarded, List.take_append, List.take_of_length_le within]
        · rw [Copied.after, later.left, List.drop_append, List.drop_of_length_le within, List.nil_append]
        · have bound := later.whole relayed
          rw [List.length_append]
          omega
      · rename_i ended
        exact at_end (fun block rest => by rw [ended]; exact Delivery.noConfusion) _
      · rename_i ended
        exact at_end (fun block rest => by rw [ended]; exact Delivery.noConfusion) _

theorem relayBody_fixed (count : Nat) (overflow : List UInt8) (reader : ByteStream) :
    (relayBody (.contentLength count) overflow reader).Cuts reader.bytes (count - overflow.length) := by
  simp only [relayBody]
  split
  · exact relayFixedFor_cuts (Nat.lt_succ_self _)
  · rename_i zero
    rw [Nat.eq_zero_of_not_pos zero]
    exact ⟨rfl, rfl, fun _ => Nat.zero_le _⟩

theorem relayBody_bytes (length : BodyLength) (overflow : List UInt8) (reader : ByteStream) :
    reader.bytes = (relayBody length overflow reader).forwarded ++ (relayBody length overflow reader).reader.bytes := by
  cases length with
  | contentLength count =>
    have cuts := relayBody_fixed count overflow reader
    rw [cuts.forwarded, cuts.left, List.take_append_drop]
  | chunked => exact (relayChunked_reads reader overflow).bytes_eq
  | none => rfl

theorem framed_of_relayBody (relayed : (relayBody length [] reader).result = .ok ()) :
    ∃ body, Framed length reader.bytes body := by
  cases length with
  | contentLength count => exact ⟨_, .fixed ((relayBody_fixed count [] reader).whole relayed)⟩
  | chunked =>
    obtain ⟨body, chunked, starts⟩ := chunked_of_relayChunked reader.bounded relayed
    exact ⟨body, .chunked chunked starts⟩
  | none => exact ⟨[], .none⟩

theorem relayBody_own (ends : EndsWithRead length reader) :
    OwnBody length reader.bytes (relayBody length [] reader).forwarded := by
  refine ⟨⟨_, (relayBody_bytes length [] reader).symm⟩, fun framed is_framed => ?_⟩
  cases is_framed with
  | none => rfl
  | fixed present => exact (relayBody_fixed _ [] reader).forwarded
  | chunked chunked starts =>
    obtain ⟨body, rest, chunked_body, reads⟩ := ends rfl ⟨framed, chunked, starts⟩
    have body_starts : body <+: reader.bytes := ⟨rest.bytes, reads.bytes_eq.symm⟩
    obtain ⟨taken, left, ran, reads_for, reached⟩ : ∃ taken rest, relayChunked reader [] = ⟨.ok (), rest, taken⟩ ∧
        ByteStream.ReadsFor relayBufSize body.length reader taken rest ∧ body.length ≤ taken.length :=
      relayChunked_complete reader.bounded chunked_body body_starts
    have forwarded : (relayBody .chunked [] reader).forwarded = taken := congrArg Copied.forwarded ran
    rw [forwarded, reads_for.eq_of_boundary reached reads]
    exact Framed.unique (.chunked chunked_body body_starts) (.chunked chunked starts)

theorem endsWithRead_of_left (left : ∀ framed, Framed length reader.bytes framed →
      (relayBody length [] reader).reader.bytes = reader.bytes.drop framed.length) :
    EndsWithRead length reader := by
  intro is_chunked present
  obtain ⟨body, chunked, starts⟩ := present
  have same := left body (is_chunked ▸ .chunked chunked starts)
  have split := relayBody_bytes length [] reader
  rw [same] at split
  have forwarded : (relayBody length [] reader).forwarded = body := by
    obtain ⟨behind, whole⟩ := starts
    rw [← whole, List.drop_left] at split
    exact (List.append_cancel_right split).symm
  rw [is_chunked] at forwarded
  exact ⟨body, _, chunked, forwarded ▸ relayChunked_reads reader []⟩

end OpenShell.Sandbox
