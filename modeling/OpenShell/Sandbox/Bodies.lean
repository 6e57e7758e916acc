import OpenShell.Sandbox.Http

namespace OpenShell.Sandbox

open Text Streams

/-! How bodies are copied from one side to the other, and how a response is relayed. What the other side
gets is returned as `forwarded`. -/

structure Copied where
  result : Except String Unit
  reader : ByteStream
  forwarded : List UInt8

def Copied.after (taken : List UInt8) (copied : Copied) : Copied :=
  { copied with forwarded := taken ++ copied.forwarded }

/-! Bodies of known length. -/

def relayFixedFor : Nat → ByteStream → Nat → Copied
  | 0, reader, _ => ⟨.ok (), reader, []⟩
  | fuel + 1, reader, remaining =>
    if remaining = 0 then ⟨.ok (), reader, []⟩
    else
      match reader.read (min remaining relayBufSize) with
      | .data block rest => (relayFixedFor fuel rest (remaining - block.length)).after block
      | .closed => ⟨.error ("Connection closed with " ++ toString remaining ++ " bytes remaining"), reader, []⟩
      | .failed error => ⟨.error error.text, reader, []⟩

/-- Every read brings at least one byte, so that there are no more reads than bytes. -/
def relayFixed (reader : ByteStream) (length : Nat) : Copied :=
  relayFixedFor (reader.bytes.length + 1) reader length

/-! Chunked bodies. -/

def findCrlf (buf : List UInt8) (start : Nat) : Option Nat := (position crlf (buf.drop start)).map (start + ·)

def chunkSize (sizeLine : List UInt8) : Except String Nat :=
  match utf8Decode sizeLine with
  | none => .error "Invalid UTF-8 in chunk-size line"
  | some line =>
    let sizeToken := trim ((split ';' line).headD [])
    match parseUnsigned 16 (2 ^ 64) sizeToken with
    | none => .error ("Invalid chunk size token: " ++ (String.ofList sizeToken).quote)
    | some size => .ok size

/-- The parser of a chunked body: what it has read, up to where it has parsed that, and what it reads
    from. -/
structure Cursor where
  parseBuf : List UInt8
  pos : Nat
  reader : ByteStream

/-- Takes the line at the position, and reads on as long as it is not there whole. What was read is
    returned too. -/
def Cursor.readLine (cursor : Cursor) (closed : String) : Except String (List UInt8) × List UInt8 × Cursor :=
  match ByteStream.gather relayBufSize (findCrlf · cursor.pos) cursor.parseBuf cursor.reader with
  | (.ready lineEnd, taken, reader) =>
    let parseBuf := cursor.parseBuf ++ taken
    (.ok ((parseBuf.take lineEnd).drop cursor.pos), taken, ⟨parseBuf, lineEnd + 2, reader⟩)
  | (.closed, taken, reader) => (.error closed, taken, ⟨cursor.parseBuf ++ taken, cursor.pos, reader⟩)
  | (.failed error, taken, reader) => (.error error.text, taken, ⟨cursor.parseBuf ++ taken, cursor.pos, reader⟩)

def Cursor.readPayload (cursor : Cursor) (size : Nat) : Except String Unit × List UInt8 × Cursor :=
  let chunkEnd := cursor.pos + size
  if 2 ^ 64 ≤ chunkEnd + 2 then (.error "Chunk size overflow", [], cursor)
  else
    match ByteStream.gather relayBufSize (fun buf => if buf.length < chunkEnd + 2 then none else some ())
        cursor.parseBuf cursor.reader with
    | (.ready (), taken, reader) =>
      let parseBuf := cursor.parseBuf ++ taken
      if (parseBuf.take (chunkEnd + 2)).drop chunkEnd ≠ crlf then
        (.error "Chunk missing terminating CRLF", taken, ⟨parseBuf, cursor.pos, reader⟩)
      else (.ok (), taken, ⟨parseBuf, chunkEnd + 2, reader⟩)
    | (.closed, taken, reader) =>
      (.error "Chunked body ended mid-chunk", taken, ⟨cursor.parseBuf ++ taken, cursor.pos, reader⟩)
    | (.failed error, taken, reader) =>
      (.error error.text, taken, ⟨cursor.parseBuf ++ taken, cursor.pos, reader⟩)

def Cursor.drain (cursor : Cursor) : Cursor :=
  if relayBufSize * 4 < cursor.pos then { cursor with parseBuf := cursor.parseBuf.drop cursor.pos, pos := 0 }
  else cursor

def relayTrailersFor : Nat → Cursor → Copied
  | 0, cursor => ⟨.error "Chunked body ended before trailer terminator", cursor.reader, []⟩
  | fuel + 1, cursor =>
    match cursor.readLine "Chunked body ended before trailer terminator" with
    | (.error error, taken, next) => ⟨.error error, next.reader, taken⟩
    | (.ok trailerLine, taken, next) =>
      if trailerLine.isEmpty then ⟨.ok (), next.reader, taken⟩
      else (relayTrailersFor fuel next).after taken

def relayTrailers (cursor : Cursor) : Copied :=
  relayTrailersFor (cursor.parseBuf.length + cursor.reader.bytes.length + 1) cursor

def relayChunksFor : Nat → Cursor → Copied
  | 0, cursor => ⟨.error "Chunked body ended before chunk-size line", cursor.reader, []⟩
  | fuel + 1, cursor =>
    match cursor.readLine "Chunked body ended before chunk-size line" with
    | (.error error, taken, next) => ⟨.error error, next.reader, taken⟩
    | (.ok sizeLine, taken, next) =>
      match chunkSize sizeLine with
      | .error error => ⟨.error error, next.reader, taken⟩
      | .ok size =>
        if size = 0 then (relayTrailers next).after taken
        else
          match next.readPayload size with
          | (.error error, payload, last) => ⟨.error error, last.reader, taken ++ payload⟩
          | (.ok (), payload, last) => (relayChunksFor fuel last.drain).after (taken ++ payload)

def relayChunked (reader : ByteStream) (alreadyForwarded : List UInt8) : Copied :=
  relayChunksFor (alreadyForwarded.length + reader.bytes.length + 1) ⟨alreadyForwarded, 0, reader⟩

/-! The body behind a header block. -/

/-- `overflow` is what was read of the body together with the header. -/
def relayBody (bodyLength : BodyLength) (overflow : List UInt8) (reader : ByteStream) : Copied :=
  match bodyLength with
  | .contentLength length =>
    if 0 < length - overflow.length then relayFixed reader (length - overflow.length) else ⟨.ok (), reader, []⟩
  | .chunked => relayChunked reader overflow
  | .none => ⟨.ok (), reader, []⟩

/-! Responses. -/

def relayUntilEofFor : Nat → ByteStream → Copied
  | 0, reader => ⟨.ok (), reader, []⟩
  | fuel + 1, reader =>
    match reader.read relayBufSize with
    | .data block rest => (relayUntilEofFor fuel rest).after block
    | .closed => ⟨.ok (), reader, []⟩
    | .failed error => ⟨.error error.text, reader, []⟩

def relayUntilEof (reader : ByteStream) : Copied := relayUntilEofFor (reader.bytes.length + 1) reader

inductive ResponseHead where
  | closed (buf : List UInt8)
  | complete (buf : List UInt8) (headerEnd : Nat)

def readResponseHeadFor : Nat → List UInt8 → ByteStream → Except String ResponseHead × ByteStream
  | 0, buf, upstream => (.ok (.closed buf), upstream)
  | fuel + 1, buf, upstream =>
    if maxHeaderBytes < buf.length then (.error "HTTP response headers exceed limit", upstream)
    else
      match upstream.read 1024 with
      | .data block rest =>
        match headerEnd (buf ++ block) with
        | some headerEnd => (.ok (.complete (buf ++ block) headerEnd), rest)
        | none => readResponseHeadFor fuel (buf ++ block) rest
      | .closed => (.ok (.closed buf), upstream)
      | .failed error => (.error error.text, upstream)

def readResponseHead (upstream : ByteStream) : Except String ResponseHead × ByteStream :=
  readResponseHeadFor (upstream.bytes.length + 1) [] upstream

structure RelayedResponse where
  outcome : Except String RelayOutcome
  upstream : ByteStream
  forwarded : List UInt8

def connectionOutcome (serverWantsClose : Bool) : RelayOutcome :=
  if serverWantsClose then .consumed else .reusable

def relayFramedResponse (requestMethod : List Char) (buf : List UInt8) (headerEnd : Nat)
    (upstream : ByteStream) : RelayedResponse :=
  let header := buf.take headerEnd
  let overflow := buf.drop headerEnd
  let headerStr := utf8DecodeLossy header
  let statusCode := (parseStatusCode headerStr).getD 200
  let serverWantsClose := parseConnectionClose headerStr
  match parseBodyLength headerStr with
  | .error error => ⟨.error error, upstream, []⟩
  | .ok bodyLength =>
    if statusCode = 101 then ⟨.ok (.upgraded overflow), upstream, header⟩
    else if isBodilessResponse requestMethod statusCode then
      ⟨.ok (connectionOutcome serverWantsClose), upstream, header⟩
    else if bodyLength = .none then
      if serverWantsClose then
        let copied := relayUntilEof upstream
        ⟨copied.result.map fun _ => .consumed, copied.reader,
          buf.take (headerEnd - 2) ++ utf8Encode "Connection: close\r\n\r\n".toList ++ overflow ++ copied.forwarded⟩
      else ⟨.ok .reusable, upstream, header⟩
    else
      let copied := relayBody bodyLength overflow upstream
      ⟨copied.result.map fun _ => .reusable, copied.reader, buf ++ copied.forwarded⟩

def relayResponse (requestMethod : List Char) (upstream : ByteStream) : RelayedResponse :=
  match readResponseHead upstream with
  | (.error error, upstream) => ⟨.error error, upstream, []⟩
  | (.ok (.closed buf), upstream) => ⟨.ok .consumed, upstream, buf⟩
  | (.ok (.complete buf headerEnd), upstream) => relayFramedResponse requestMethod buf headerEnd upstream

end OpenShell.Sandbox
