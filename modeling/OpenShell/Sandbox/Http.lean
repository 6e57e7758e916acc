import Mathlib.Data.List.AList
import OpenShell.Lib.ByteStream
import OpenShell.Sandbox.Secrets

namespace OpenShell.Sandbox

open Text Streams Results

/-! Requests and responses of HTTP/1.1 as the REST relay reads them: the header block, the framing of the
body, and the header fields that steer the relay. -/

def maxHeaderBytes : Nat := 16384

def relayBufSize : Nat := 8192

inductive BodyLength where
  | contentLength (length : Nat)
  | chunked
  | none
deriving DecidableEq

inductive RelayOutcome where
  | reusable
  | consumed
  | upgraded (overflow : List UInt8)
deriving DecidableEq

structure L7Request where
  action : List Char
  target : List Char
  queryParams : AList (fun _ : String => List String) := ∅
  rawHeader : List UInt8
  bodyLength : BodyLength

/-! Header fields. -/

def fieldValue (line : List Char) : List Char := ((splitOnce ':' line).map fun (_, value) => trim value).getD []

def headerFields (headers : List Char) : List (List Char) := ((lines headers).drop 1).map toAsciiLowercase

def isField (name : String) (line : List Char) : Bool := name.toList.isPrefixOf line

def hasItem (item : String) (value : List Char) : Bool := (split ',' value).any fun part => trim part = item.toList

structure Framing where
  hasTeChunked : Bool := false
  clValue : Option Nat := none

def Framing.readTransferEncoding (framing : Framing) (lower : List Char) : Framing :=
  if isField "transfer-encoding:" lower && hasItem "chunked" (fieldValue lower) then
    { framing with hasTeChunked := true }
  else framing

def Framing.readContentLength (framing : Framing) (lower : List Char) : Except String Framing :=
  if isField "content-length:" lower then
    match parseUnsigned 10 (2 ^ 64) (fieldValue lower) with
    | none => .error "Request contains invalid Content-Length value"
    | some length =>
      match framing.clValue with
      | some previous =>
        if previous ≠ length then
          .error ("Request contains multiple Content-Length headers with differing values (" ++
            toString previous ++ " vs " ++ toString length ++ ")")
        else .ok { framing with clValue := some length }
      | none => .ok { framing with clValue := some length }
  else .ok framing

def Framing.readLine (framing : Framing) (lower : List Char) : Except String Framing :=
  (framing.readTransferEncoding lower).readContentLength lower

def parseBodyLength (headers : List Char) : Except String BodyLength := do
  let framing ← (headerFields headers).foldlM Framing.readLine {}
  if framing.hasTeChunked && framing.clValue.isSome then
    .error "Request contains both Transfer-Encoding and Content-Length headers"
  else if framing.hasTeChunked then pure .chunked
  else
    match framing.clValue with
    | some length => pure (.contentLength length)
    | none => pure .none

def parseStatusCode (headers : List Char) : Option Nat := do
  let statusLine ← (lines headers).head?
  let code ← (splitWhitespace statusLine)[1]?
  parseUnsigned 10 (2 ^ 16) code

def parseConnectionClose (headers : List Char) : Bool :=
  match (headerFields headers).find? (isField "connection:") with
  | some line => contains (fieldValue line) "close".toList
  | none => false

def clientRequestedUpgrade (headers : List Char) : Bool :=
  (headerFields headers).any (isField "upgrade:") &&
    (headerFields headers).any fun line => isField "connection:" line && hasItem "upgrade" (fieldValue line)

def isBodilessResponse (requestMethod : List Char) (statusCode : Nat) : Bool :=
  toAsciiLowercase requestMethod = "head".toList || (100 ≤ statusCode && statusCode < 200) ||
    statusCode = 204 || statusCode = 304

def httpMethods : List String :=
  ["GET ", "HEAD ", "POST ", "PUT ", "DELETE ", "PATCH ", "OPTIONS ", "CONNECT ", "TRACE "]

def looksLikeHttp (peek : List UInt8) : Bool :=
  httpMethods.any fun method => (utf8Encode method.toList).isPrefixOf peek

/-! The request target. -/

def decodeHexNibble (byte : UInt8) : Option UInt8 :=
  if 0x30 ≤ byte ∧ byte ≤ 0x39 then some (byte - 0x30)
  else if 0x61 ≤ byte ∧ byte ≤ 0x66 then some (byte - 0x61 + 10)
  else if 0x41 ≤ byte ∧ byte ≤ 0x46 then some (byte - 0x41 + 10)
  else none

def decodeQueryBytes : List UInt8 → Option (List UInt8)
  | [] => some []
  | 0x2B :: bytes => (0x20 :: ·) <$> decodeQueryBytes bytes
  | 0x25 :: high :: low :: bytes => do
    let high ← decodeHexNibble high
    let low ← decodeHexNibble low
    let decoded ← decodeQueryBytes bytes
    pure ((high <<< 4 ||| low) :: decoded)
  | 0x25 :: _ => none
  | byte :: bytes => (byte :: ·) <$> decodeQueryBytes bytes

def decodeQueryComponent (input : List Char) : Except String (List Char) :=
  match decodeQueryBytes (utf8Encode input) with
  | none => .error "Invalid percent-encoding in query component"
  | some decoded =>
    match utf8Decode decoded with
    | none => .error "Query component is not valid UTF-8"
    | some text => .ok text

def addQueryParam (params : AList (fun _ : String => List String)) (pair : List Char) :
    Except String (AList (fun _ : String => List String)) := do
  if pair.isEmpty then pure params
  else
    let (rawKey, rawValue) := (splitOnce '=' pair).getD (pair, [])
    let key ← decodeQueryComponent rawKey
    let value ← decodeQueryComponent rawValue
    let held := (params.lookup (String.ofList key)).getD []
    pure (params.insert (String.ofList key) (held ++ [String.ofList value]))

def parseQueryParams (query : List Char) : Except String (AList (fun _ : String => List String)) :=
  (split '&' query).foldlM addQueryParam ∅

def parseTargetQuery (target : List Char) :
    Except String (List Char × AList (fun _ : String => List String)) := do
  match splitOnce '?' target with
  | some (path, query) => pure (path, ← parseQueryParams query)
  | none => pure (target, ∅)

/-! The header block of a request. -/

def hasBareLf (previous : Option UInt8) : List UInt8 → Bool
  | [] => false
  | byte :: bytes => (byte = 0x0A && previous ≠ some 0x0D) || hasBareLf (some byte) bytes

def parseRequestLine (line : List Char) : Except String (List Char × List Char) :=
  match splitWhitespace line with
  | [] => .error "Missing HTTP method"
  | [_] => .error "Missing HTTP path"
  | [_, _] => .error "Missing HTTP version"
  | method :: target :: version :: _ =>
    if version = "HTTP/1.1".toList ∨ version = "HTTP/1.0".toList then .ok (method, target)
    else .error ("Unsupported HTTP version: " ++ String.ofList version)

def parseHeaderBlock (buf : List UInt8) : Except String L7Request := do
  let header := buf.take ((headerEnd buf).getD buf.length)
  if hasBareLf none header then
    .error "HTTP headers contain bare LF (line feed without carriage return)"
  else
    match utf8Decode header with
    | none => .error "HTTP headers contain invalid UTF-8"
    | some headerStr =>
      match (lines headerStr).head? with
      | none => .error "Empty HTTP request"
      | some requestLine =>
        let (method, target) ← parseRequestLine requestLine
        let bodyLength ← parseBodyLength headerStr
        let (path, queryParams) ← parseTargetQuery target
        pure { action := method, target := path, queryParams, rawHeader := buf, bodyLength }

def isBenignClose (error : IoError) : Bool :=
  error.kind = .unexpectedEof || error.kind = .connectionReset || error.kind = .brokenPipe

/-- Reads byte by byte up to the blank line; `room` more bytes may come. No bytes at all is a client that
    closed. -/
def readHeaderBlock : Nat → List UInt8 → ByteStream → Except String (Option (List UInt8)) × ByteStream
  | 0, _, client => (.error "HTTP request headers exceed 16384 bytes", client)
  | room + 1, buf, client =>
    match client.read 1 with
    | .data block rest =>
      if (crlf ++ crlf).isSuffixOf (buf ++ block) then (.ok (some (buf ++ block)), rest)
      else readHeaderBlock room (buf ++ block) rest
    | .closed => if buf.isEmpty then (.ok none, client) else (.error "unexpected end of file", client)
    | .failed error =>
      if buf.isEmpty && isBenignClose error then (.ok none, client) else (.error error.text, client)

def parseHttpRequest (client : ByteStream) : Except String (Option L7Request) × ByteStream :=
  match readHeaderBlock (maxHeaderBytes + 1) [] client with
  | (.ok (some buf), rest) => ((parseHeaderBlock buf).map some, rest)
  | (.ok none, rest) => (.ok none, rest)
  | (.error error, rest) => (.error error, rest)

/-! What is read for a request is its header block and nothing behind it. -/

theorem readHeaderBlock_block {room : Nat} {buf block : List UInt8} {client behind : ByteStream}
    (open_end : position (crlf ++ crlf) buf = none)
    (ran : readHeaderBlock room buf client = (.ok (some block), behind)) :
    ∃ read, block = buf ++ read ∧ read ≠ [] ∧ client.bytes = read ++ behind.bytes ∧
      headerEnd block = some block.length := by
  induction room generalizing buf client with
  | zero => cases ran
  | succ room ih =>
    unfold readHeaderBlock at ran
    split at ran
    · rename_i piece rest delivered
      obtain ⟨split_bytes, short, filled⟩ := ByteStream.read_data delivered
      obtain ⟨byte, rfl⟩ : ∃ byte, piece = [byte] := by
        rw [← List.length_eq_one_iff]
        have positive := List.length_pos_iff.mpr (filled Nat.one_pos)
        omega
      obtain ⟨complete, still_open⟩ := position_concat byte open_end
      split at ran
      · rename_i ends
        cases ran
        refine ⟨[byte], rfl, filled Nat.one_pos, split_bytes, ?_⟩
        have bound := (List.isSuffixOf_iff_suffix.mp ends).length_le
        rw [headerEnd, complete (List.isSuffixOf_iff_suffix.mp ends), Option.map_some, Option.some.injEq]
        simp only [List.length_append, crlf, List.length_cons, List.length_nil] at bound ⊢
        omega
      · rename_i going
        rw [List.isSuffixOf_iff_suffix] at going
        obtain ⟨read, split_block, _, split_rest, ended⟩ := ih (still_open going) ran
        refine ⟨byte :: read, ?_, List.cons_ne_nil _ _, ?_, ended⟩
        · rw [split_block, List.append_assoc, List.singleton_append]
        · rw [split_bytes, split_rest, List.singleton_append, List.cons_append]
    · split at ran <;> cases ran
    · split at ran <;> cases ran

theorem parseHeaderBlock_rawHeader {buf : List UInt8} {request : L7Request}
    (parsed : parseHeaderBlock buf = .ok request) : request.rawHeader = buf := by
  unfold parseHeaderBlock at parsed
  simp only at parsed
  split at parsed
  · cases parsed
  · split at parsed
    · cases parsed
    · split at parsed
      · cases parsed
      · obtain ⟨parts, _, parsed⟩ := ok_of_bind parsed
        obtain ⟨bodyLength, _, parsed⟩ := ok_of_bind parsed
        obtain ⟨target, _, parsed⟩ := ok_of_bind parsed
        cases parsed
        rfl

/-- What is read is parsed, and kept as it is. -/
theorem parseHttpRequest_ok {client behind : ByteStream} {request : L7Request}
    (parsed : parseHttpRequest client = (.ok (some request), behind)) :
    readHeaderBlock (maxHeaderBytes + 1) [] client = (.ok (some request.rawHeader), behind) ∧
      parseHeaderBlock request.rawHeader = .ok request := by
  unfold parseHttpRequest at parsed
  split at parsed
  · rename_i buf rest ran
    cases accepted : parseHeaderBlock buf with
    | error error =>
      rw [accepted] at parsed
      cases parsed
    | ok result =>
      rw [accepted] at parsed
      cases parsed
      rw [parseHeaderBlock_rawHeader accepted]
      exact ⟨ran, accepted⟩
  · cases parsed
  · cases parsed

theorem parseHttpRequest_request {client behind : ByteStream} {request : L7Request}
    (parsed : parseHttpRequest client = (.ok (some request), behind)) :
    client.bytes = request.rawHeader ++ behind.bytes ∧ request.rawHeader ≠ [] ∧
      headerEnd request.rawHeader = some request.rawHeader.length := by
  obtain ⟨ran, _⟩ := parseHttpRequest_ok parsed
  obtain ⟨read, same, filled, split_bytes, ended⟩ := readHeaderBlock_block rfl ran
  rw [List.nil_append] at same
  rw [same]
  rw [same] at ended
  exact ⟨split_bytes, filled, ended⟩

/-! A header block that the client sends is read, if there is room for it. -/

/-- The blank line ends the block and stands nowhere before. -/
theorem suffix_of_headerEnd {buf read : List UInt8} (ended : headerEnd (buf ++ read) = some (buf ++ read).length) :
    crlf ++ crlf <:+ buf ++ read ∧ (read ≠ [] → ¬ crlf ++ crlf <:+ buf) := by
  obtain ⟨offset, found, length⟩ := Option.map_eq_some_iff.mp ended
  obtain ⟨there, first⟩ := position_eq_some_iff.mp found
  have size : (crlf ++ crlf).length = 4 := rfl
  constructor
  · have whole : crlf ++ crlf = (buf ++ read).drop offset := by
      apply there.eq_of_length_le
      rw [List.length_drop, size]
      omega
    rw [whole]
    exact List.drop_suffix _ _
  · intro filled early
    have positive := List.length_pos_iff.mpr filled
    rw [List.length_append] at length
    apply first (buf.length - 4)
    · have bound := early.length_le
      omega
    · have here := List.suffix_iff_eq_drop.mp early
      rw [size] at here
      rw [List.drop_append_of_le_length (by omega), ← here]
      exact List.prefix_append _ _

theorem readHeaderBlock_reads {room : Nat} {buf read more : List UInt8} {client : ByteStream}
    (sent : client.bytes = read ++ more) (filled : read ≠ [])
    (ended : headerEnd (buf ++ read) = some (buf ++ read).length) :
    (read.length ≤ room → ∃ behind, readHeaderBlock room buf client = (.ok (some (buf ++ read)), behind)) ∧
      (room < read.length → ∃ error behind, readHeaderBlock room buf client = (.error error, behind)) := by
  induction room generalizing buf read client with
  | zero =>
    have positive := List.length_pos_iff.mpr filled
    exact ⟨fun fits => by omega, fun _ => ⟨_, _, rfl⟩⟩
  | succ room ih =>
    obtain ⟨byte, later, rfl⟩ := List.exists_cons_of_ne_nil filled
    obtain ⟨rest, delivered, left⟩ := ByteStream.read_byte sent
    rw [List.append_cons] at ended ⊢
    have marks := suffix_of_headerEnd ended
    unfold readHeaderBlock
    simp only [delivered, List.isSuffixOf_iff_suffix]
    cases later with
    | nil =>
      rw [List.append_nil] at marks ⊢
      rw [if_pos marks.1]
      refine ⟨fun _ => ⟨rest, rfl⟩, fun long => ?_⟩
      rw [List.length_singleton] at long
      omega
    | cons next later =>
      rw [if_neg (marks.2 (List.cons_ne_nil _ _)), List.length_cons]
      obtain ⟨reads, overflows⟩ := ih left (List.cons_ne_nil _ _) ended
      exact ⟨fun fits => reads (by omega), fun long => overflows (by omega)⟩

theorem parseHttpRequest_of_block {block more : List UInt8} {client : ByteStream} (sent : client.bytes = block ++ more)
    (filled : block ≠ []) (ended : headerEnd block = some block.length) :
    (block.length ≤ maxHeaderBytes + 1 →
      ∃ behind, parseHttpRequest client = ((parseHeaderBlock block).map some, behind)) ∧
      (maxHeaderBytes + 1 < block.length → ∃ error behind, parseHttpRequest client = (.error error, behind)) := by
  obtain ⟨reads, overflows⟩ := @readHeaderBlock_reads (maxHeaderBytes + 1) [] block more client sent filled ended
  unfold parseHttpRequest
  constructor
  · intro fits
    obtain ⟨behind, ran⟩ := reads fits
    rw [ran]
    exact ⟨behind, rfl⟩
  · intro long
    obtain ⟨error, behind, ran⟩ := overflows long
    rw [ran]
    exact ⟨error, behind, rfl⟩

end OpenShell.Sandbox
