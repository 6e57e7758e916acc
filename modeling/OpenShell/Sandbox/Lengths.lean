import OpenShell.Sandbox.HeaderFields
import OpenShell.Sandbox.InferenceBodies

namespace OpenShell.Sandbox

open Text Streams

/-! How the lengths are written that the parsers accept: the parser of integers takes a plus sign before the digits. -/

section Fields

variable {headers : List Char} {length : Nat}

theorem lengths_of_contentLength (accepted : parseBodyLength headers = .ok (.contentLength length)) :
    ∀ value ∈ valuesOf headerField "content-length" (headerLines headers),
      parseUnsigned 10 (2 ^ 64) value = some length := by
  have framed := parseBodyLength_eq headers
  rw [accepted] at framed
  exact (framingOf_eq_contentLength_iff.mp framed.symm).2.2

theorem decimal_lengths_iff (accepted : parseBodyLength headers = .ok (.contentLength length)) :
    (∀ value ∈ valuesOf headerField "content-length" (headerLines headers), Decimal value length) ↔
      ∀ value ∈ valuesOf headerField "content-length" (headerLines headers), value.head? ≠ some '+' :=
  forall₂_congr fun value member => decimal_iff (by decide) (lengths_of_contentLength accepted value member)

end Fields

section Chunks

variable {lines : List (List UInt8)} {line decoded body bytes : List UInt8}

/-- A size line with its size in hexadecimal digits. -/
def CanonicalSize (line : List UInt8) : Prop := ∃ token, sizeToken line = some token ∧ Hexadecimal token

def SignedSize (line : List UInt8) : Prop := ∃ token, sizeToken line = some token ∧ token.head? = some '+'

theorem canonicalSize_iff {size : Nat} (sized : chunkSize line = .ok size) : CanonicalSize line ↔ ¬ SignedSize line := by
  obtain ⟨token, found, parsed⟩ := chunkSize_eq_ok_iff.mp sized
  unfold CanonicalSize SignedSize
  simp only [found, Option.some.injEq, exists_eq_left']
  exact hexadecimal_iff (by decide) parsed

theorem ChunkedAs.canonical_iff (chunked : ChunkedAs lines decoded body) :
    (∀ line ∈ lines, CanonicalSize line) ↔ ∀ line ∈ lines, ¬ SignedSize line := by
  refine forall₂_congr fun line member => ?_
  obtain ⟨size, sized⟩ := chunked.sized line member
  exact canonicalSize_iff sized

/-- The size lines of the chunked body that the bytes begin with. -/
def SizeLines (bytes : List UInt8) (lines : List (List UInt8)) : Prop :=
  ∃ decoded body, ChunkedAs lines decoded body ∧ body <+: bytes

theorem SizeLines.canonical_iff (sized : SizeLines bytes lines) :
    (∀ line ∈ lines, CanonicalSize line) ↔ ∀ line ∈ lines, ¬ SignedSize line := by
  obtain ⟨decoded, body, chunked, _⟩ := sized
  exact chunked.canonical_iff

theorem sizeLines_of_relay {reader : ByteStream} {overflow : List UInt8}
    (bounded : (overflow ++ reader.bytes).length < 2 ^ 64) (relayed : (relayChunked reader overflow).result = .ok ()) :
    ∃ lines, SizeLines (overflow ++ reader.bytes) lines := by
  obtain ⟨body, chunked, starts⟩ := chunked_of_relayChunked bounded relayed
  obtain ⟨lines, decoded, chunkedAs⟩ := chunkedBody_iff.mp chunked
  exact ⟨lines, decoded, body, chunkedAs, starts⟩

theorem sizeLines_of_parse {overflowChecks : Bool} {buf : List UInt8} {limits : Inference.Limits} {start consumed : Nat}
    (bounded : buf.length ≤ Inference.maxSlice)
    (parsed : Inference.parseChunkedBody overflowChecks buf limits start = .ok (decoded, consumed)) :
    ∃ lines, SizeLines (buf.drop start) lines := by
  obtain ⟨_, _, _, lines, body, chunked, starts, _⟩ :=
    (Inference.parseChunkedBody_eq_ok_iff overflowChecks bounded).mp parsed
  exact ⟨lines, decoded, body, chunked, starts⟩

end Chunks

/-- The accepted lengths are plain digits exactly where none of them has a sign. -/
theorem accepted_lengths_canonical_iff (headers : List Char) (reader : ByteStream) (overflow buf : List UInt8)
    (overflowChecks : Bool) (start : Nat) (streamBounded : (overflow ++ reader.bytes).length < 2 ^ 64)
    (bufBounded : buf.length ≤ Inference.maxSlice) :
    (∀ length, parseBodyLength headers = .ok (.contentLength length) →
        ((∀ value ∈ valuesOf headerField "content-length" (headerLines headers), Decimal value length) ↔
          ∀ value ∈ valuesOf headerField "content-length" (headerLines headers), value.head? ≠ some '+')) ∧
      ((relayChunked reader overflow).result = .ok () → ∃ lines, SizeLines (overflow ++ reader.bytes) lines ∧
        ((∀ line ∈ lines, CanonicalSize line) ↔ ∀ line ∈ lines, ¬ SignedSize line)) ∧
      (∀ decoded consumed, Inference.parseChunkedBody overflowChecks buf Inference.limits start = .ok (decoded, consumed) →
        ∃ lines, SizeLines (buf.drop start) lines ∧
          ((∀ line ∈ lines, CanonicalSize line) ↔ ∀ line ∈ lines, ¬ SignedSize line)) := by
  refine ⟨fun length accepted => decimal_lengths_iff accepted, fun relayed => ?_, fun decoded consumed parsed => ?_⟩
  · obtain ⟨lines, sized⟩ := sizeLines_of_relay streamBounded relayed
    exact ⟨lines, sized, sized.canonical_iff⟩
  · obtain ⟨lines, sized⟩ := sizeLines_of_parse bufBounded parsed
    exact ⟨lines, sized, sized.canonical_iff⟩

def signedHeaders : List Char := "POST / HTTP/1.1\r\nContent-Length: +5\r\n\r\n".toList

def signedChunks : List UInt8 := utf8Encode "+5\r\nhello\r\n0\r\n\r\n".toList

def signedStream : ByteStream where
  segments := [signedChunks]
  nonempty := by decide +kernel
  bounded := by decide +kernel

theorem signedChunks_lines :
    SizeLines signedChunks [utf8Encode "+5".toList, utf8Encode "0".toList] := by
  have last : ChunkedAs [utf8Encode "0".toList] [] (utf8Encode "0".toList ++ crlf ++ crlf) := .last rfl rfl .last
  exact ⟨utf8Encode "hello".toList ++ [], _, .chunk rfl rfl (by decide) last, List.prefix_rfl⟩

/-- A sign passes in a length, and in the size of a chunk with either parser. -/
theorem signed_accepted :
    (parseBodyLength signedHeaders = .ok (.contentLength 5) ∧
      "+5".toList ∈ valuesOf headerField "content-length" (headerLines signedHeaders) ∧ ¬ Decimal "+5".toList 5) ∧
    (SizeLines signedChunks [utf8Encode "+5".toList, utf8Encode "0".toList] ∧
      ¬ CanonicalSize (utf8Encode "+5".toList) ∧ (relayChunked signedStream []).result = .ok () ∧
      Inference.parseChunkedBody true signedChunks Inference.limits 0 =
        .ok (utf8Encode "hello".toList, signedChunks.length)) := by
  refine ⟨⟨by rfl, by decide +kernel, ?_⟩, signedChunks_lines, ?_, by rfl, by decide +kernel⟩
  · rintro ⟨_, digits, _⟩
    exact absurd (digits '+' List.mem_cons_self) (by decide)
  · rw [@canonicalSize_iff _ 5 rfl, not_not]
    exact ⟨"+5".toList, rfl, rfl⟩

def plainHeaders : List Char := "POST / HTTP/1.1\r\nContent-Length: 5\r\n\r\n".toList

theorem plainHeaders_canonical : parseBodyLength plainHeaders = .ok (.contentLength 5) ∧
    ∀ value ∈ valuesOf headerField "content-length" (headerLines plainHeaders), Decimal value 5 := by
  have accepted : parseBodyLength plainHeaders = .ok (.contentLength 5) := by rfl
  have canonical := (accepted_lengths_canonical_iff plainHeaders signedStream [] signedChunks true 0 (by decide +kernel)
    (by decide +kernel)).1 5 accepted
  exact ⟨accepted, canonical.mpr (by decide +kernel)⟩

end OpenShell.Sandbox
