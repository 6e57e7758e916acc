import OpenShell.Sandbox.Http

namespace OpenShell.Sandbox.Inference

open Text Results

/-! Requests of HTTP/1.1 as the interceptor of inference calls reads them out of its buffer. Offsets into the buffer
are machine words. -/

inductive Abort where
  | overflow | outOfRange
deriving DecidableEq

/-- The longest slice, `isize::MAX` bytes. -/
def maxSlice : Nat := 2 ^ 63 - 1

/-- A sum that the code does not check: it aborts where the build has overflow checks, and wraps around where not. -/
def add (overflowChecks : Bool) (first second : Nat) : Except Abort Nat :=
  if first + second < 2 ^ 64 then .ok (first + second)
  else if overflowChecks then .error .overflow
  else .ok ((first + second) % 2 ^ 64)

def slice (buf : List UInt8) (start stop : Nat) : Except Abort (List UInt8) :=
  if start ≤ stop ∧ stop ≤ buf.length then .ok ((buf.take stop).drop start) else .error .outOfRange

structure ParsedHttpRequest where
  method : List Char
  path : List Char
  headers : List (List Char × List Char)
  body : List UInt8
deriving DecidableEq

inductive ParseResult where
  | complete (request : ParsedHttpRequest) (consumed : Nat)
  | incomplete
  | invalid (reason : String)
deriving DecidableEq

/-! Header lines. -/

def eqIgnoreAsciiCase (first second : List Char) : Bool := toAsciiLowercase first = toAsciiLowercase second

structure Headers where
  headers : List (List Char × List Char) := []
  contentLength : Nat := 0
  hasContentLength : Bool := false
  isChunked : Bool := false

def Headers.readContentLength (headers : Headers) (name value : List Char) : Except String Headers :=
  if eqIgnoreAsciiCase name "content-length".toList then
    match parseUnsigned 10 (2 ^ 64) value with
    | none => .error ("invalid Content-Length value: " ++ String.ofList value)
    | some newLen =>
      if headers.hasContentLength && newLen ≠ headers.contentLength then
        .error ("duplicate Content-Length headers with differing values (" ++ toString headers.contentLength ++
          " vs " ++ toString newLen ++ ")")
      else .ok { headers with contentLength := newLen, hasContentLength := true }
  else .ok headers

def Headers.readTransferEncoding (headers : Headers) (name value : List Char) : Headers :=
  if eqIgnoreAsciiCase name "transfer-encoding".toList &&
      (split ',' value).any fun enc => eqIgnoreAsciiCase (trim enc) "chunked".toList then
    { headers with isChunked := true }
  else headers

def Headers.readLine (headers : Headers) (line : List Char) : Except String Headers :=
  match splitOnce ':' line with
  | none => .ok headers
  | some (name, value) => do
    let headers ← headers.readContentLength (trim name) (trim value)
    let headers := headers.readTransferEncoding (trim name) (trim value)
    pure { headers with headers := headers.headers ++ [(trim name, trim value)] }

def readHeaders (lines : List (List Char)) : Except String Headers :=
  (lines.takeWhile (!·.isEmpty)).foldlM Headers.readLine {}

/-! Chunked bodies. -/

structure Limits where
  chunkCount : Nat
  chunkedBody : Nat

def maxChunkedBody : Nat := 10 * 1024 * 1024

def maxChunkCount : Nat := 4096

def limits : Limits := ⟨maxChunkCount, maxChunkedBody⟩

/-- Why the parser of a chunked body stops early. `missing` is its `None`. -/
inductive Stop where
  | missing
  | aborted (abort : Abort)
deriving DecidableEq

def orMissing {α : Type} : Option α → Except Stop α
  | some value => .ok value
  | none => .error .missing

def orAbort {α : Type} (result : Except Abort α) : Except Stop α := result.mapError .aborted

def checkedAdd (first second : Nat) : Except Stop Nat :=
  if first + second < 2 ^ 64 then .ok (first + second) else .error .missing

def saturatingAdd (first second : Nat) : Nat := min (first + second) (2 ^ 64 - 1)

def chunkSize (sizeLine : List UInt8) : Option Nat := do
  let line ← utf8Decode sizeLine
  let sizeToken ← (split ';' line).head?
  parseUnsigned 16 (2 ^ 64) (trim sizeToken)

section Parsing

variable (overflowChecks : Bool) (buf : List UInt8)

def findCrlf (start : Nat) : Except Stop Nat := do
  let bytes ← orMissing (if start ≤ buf.length then some (buf.drop start) else none)
  let offset ← orMissing (position crlf bytes)
  orAbort (add overflowChecks start offset)

/-- Every trailer line has its line break, so there are fewer of them than bytes. -/
def parseTrailersFor : Nat → Nat → Except Stop Nat
  | 0, _ => .error .missing
  | fuel + 1, pos => do
    let trailerEnd ← findCrlf overflowChecks buf pos
    let trailerLine ← orAbort (slice buf pos trailerEnd)
    let pos ← checkedAdd trailerEnd 2
    if trailerLine.isEmpty then pure pos else parseTrailersFor fuel pos

/-- The number counts down the chunks that may still come. -/
def parseChunksFor (limits : Limits) : Nat → Nat → List UInt8 → Except Stop (List UInt8 × Nat)
  | 0, _, _ => .error .missing
  | chunksLeft + 1, pos, body => do
    let sizeLineEnd ← findCrlf overflowChecks buf pos
    let sizeLine ← orAbort (slice buf pos sizeLineEnd)
    let chunkSize ← orMissing (chunkSize sizeLine)
    let pos ← checkedAdd sizeLineEnd 2
    if chunkSize = 0 then
      let pos ← parseTrailersFor overflowChecks buf (buf.length + 1) pos
      pure (body, pos)
    else if buf.length - pos < chunkSize then .error .missing
    else if limits.chunkedBody < saturatingAdd body.length chunkSize then .error .missing
    else
      let chunkEnd ← checkedAdd pos chunkSize
      let chunkCrlfEnd ← checkedAdd chunkEnd 2
      if buf.length < chunkCrlfEnd then .error .missing
      else
        let ending ← orAbort (slice buf chunkEnd chunkCrlfEnd)
        if ending ≠ crlf then .error .missing
        else
          let payload ← orAbort (slice buf pos chunkEnd)
          parseChunksFor limits chunksLeft chunkCrlfEnd (body ++ payload)

def parseChunkedBody (limits : Limits) (start : Nat) : Except Stop (List UInt8 × Nat) :=
  parseChunksFor overflowChecks buf limits limits.chunkCount start []

/-! The request. -/

def parseBody (request : List UInt8 → ParsedHttpRequest) (headers : Headers) (bodyStart : Nat) :
    Except Abort ParseResult :=
  if headers.isChunked && headers.hasContentLength then
    pure (.invalid "Request contains both Transfer-Encoding and Content-Length headers")
  else if headers.isChunked then
    match parseChunkedBody overflowChecks buf limits bodyStart with
    | .ok (decodedBody, consumed) => pure (.complete (request decodedBody) consumed)
    | .error .missing => pure .incomplete
    | .error (.aborted abort) => .error abort
  else do
    let totalLen ← add overflowChecks bodyStart headers.contentLength
    if buf.length < totalLen then pure .incomplete
    else
      let body ← slice buf bodyStart totalLen
      pure (.complete (request body) totalLen)

def parseHead (headerEnd : Nat) (headerStr : List Char) : Except Abort ParseResult := do
  let bodyStart ← add overflowChecks headerEnd 4
  match splitCrlf headerStr with
  | [] => pure .incomplete
  | requestLine :: lines =>
    match splitWhitespace requestLine with
    | method :: path :: _ =>
      match readHeaders lines with
      | .error reason => pure (.invalid reason)
      | .ok headers => parseBody overflowChecks buf (⟨method, path, headers.headers, ·⟩) headers bodyStart
    | _ => pure .incomplete

def tryParseHttpRequest : Except Abort ParseResult :=
  match position (crlf ++ crlf) buf with
  | none => pure .incomplete
  | some headerEnd => do
    let headersBytes ← slice buf 0 headerEnd
    match utf8Decode headersBytes with
    | none => pure .incomplete
    | some headerStr => parseHead overflowChecks buf headerEnd headerStr

end Parsing

/-! Streamed responses. -/

def maxStreamingBody : Nat := 32 * 1024 * 1024

def formatChunk (data : List UInt8) : List UInt8 :=
  utf8Encode (Nat.toDigits 16 data.length) ++ crlf ++ data ++ crlf

def formatChunkTerminator : List UInt8 := utf8Encode "0\r\n\r\n".toList

end OpenShell.Sandbox.Inference
