import OpenShell.Sandbox.Dial
import OpenShell.Sandbox.Relay

namespace OpenShell.Sandbox

open Text Net Streams

/-! One connection to the proxy, from its first byte: a CONNECT that opens a tunnel, or a plain request that is
forwarded. -/

def maxProxyHeaderBytes : Nat := 8192

def inferenceLocalHost : List Char := "inference.local".toList

/-! Who asks. -/

structure Identity where
  binaryPath : String
  ancestors : List String := []
  cmdlinePaths : List String := []

/-- The identity of the peer could not be established. -/
structure IdentityError where
  reason : String
  binary : Option String := none
  ancestors : List String := []

def evaluateOpaTcp (engine : OpaEngine) (identity : Except IdentityError Identity) (host : String) (port : UInt16) :
    ConnectDecision :=
  match identity with
  | .error error => { action := .deny error.reason, binary := error.binary, ancestors := error.ancestors }
  | .ok peer =>
    decideConnect engine
      { host := host, port := port, binaryPath := peer.binaryPath, ancestors := peer.ancestors,
        cmdlinePaths := peer.cmdlinePaths }

/-! What is asked for. -/

def parsePort (text : List Char) : Option UInt16 := (parseUnsigned 10 (2 ^ 16) text).map UInt16.ofNat

def parseTarget (target : List Char) : Except String (List Char × UInt16) :=
  match splitOnce ':' target with
  | none => .error ("CONNECT target missing port: " ++ String.ofList target)
  | some (host, portStr) =>
    match parsePort portStr with
    | none => .error ("Invalid port in CONNECT target: " ++ String.ofList target)
    | some port => .ok (host, port)

structure ProxyUri where
  scheme : List Char
  host : List Char
  port : UInt16
  path : List Char
deriving DecidableEq

def defaultPort (scheme : List Char) : UInt16 := if scheme = "https".toList then 443 else 80

def find (wanted : Char) (text : List Char) : Option Nat := text.findIdx? (· = wanted)

/-- The authority, and the path with its query. -/
def splitAuthority (uri rest : List Char) : Except String (List Char × List Char) :=
  if rest.head? = some '[' then
    match find ']' rest with
    | none => .error ("Unclosed IPv6 bracket in URI: " ++ String.ofList uri)
    | some bracketEnd =>
      let afterBracket := rest.drop (bracketEnd + 1)
      match find '/' afterBracket with
      | some slashPos => .ok (rest.take (bracketEnd + 1 + slashPos), afterBracket.drop slashPos)
      | none => .ok (rest, ['/'])
  else
    match find '/' rest with
    | some slashPos => .ok (rest.take slashPos, rest.drop slashPos)
    | none => .ok (rest, ['/'])

def splitHostPort (uri scheme authority : List Char) : Except String (List Char × UInt16) :=
  if authority.head? = some '[' then
    match find ']' authority with
    | none => .error ("Unclosed IPv6 bracket: " ++ String.ofList uri)
    | some bracketEnd =>
      let host := (authority.take bracketEnd).drop 1
      match stripPrefix [':'] (authority.drop (bracketEnd + 1)) with
      | none => .ok (host, defaultPort scheme)
      | some portStr =>
        match parsePort portStr with
        | none => .error ("Invalid port in URI: " ++ String.ofList uri)
        | some port => .ok (host, port)
  else
    match rsplitOnce ':' authority with
    | some (host, portStr) =>
      match parsePort portStr with
      | none => .error ("Invalid port in URI: " ++ String.ofList uri)
      | some port => .ok (host, port)
    | none => .ok (authority, defaultPort scheme)

def parseProxyUri (uri : List Char) : Except String ProxyUri :=
  match splitOnceAt "://".toList uri with
  | none => .error ("Missing scheme in proxy URI: " ++ String.ofList uri)
  | some (scheme, rest) => do
    let scheme := toAsciiLowercase scheme
    let (authority, path) ← splitAuthority uri rest
    let (host, port) ← splitHostPort uri scheme authority
    if host.isEmpty then .error ("Empty host in URI: " ++ String.ofList uri)
    else pure { scheme, host, port, path := if path.isEmpty then ['/'] else path }

/-! The header block of a forwarded request. -/

structure ForwardHeaders where
  output : List UInt8
  hasConnection : Bool := false
  hasVia : Bool := false

def connectionClose : List UInt8 := utf8Encode "Connection: close\r\n".toList

def viaSandbox : List UInt8 := utf8Encode "Via: 1.1 openshell-sandbox\r\n".toList

def isProxyField (lower : List Char) : Bool :=
  isField "proxy-connection:" lower || isField "proxy-authorization:" lower || isField "proxy-authenticate:" lower

section Rewriting

variable (base64 : Base64) (secretResolver : Option SecretResolver)

def ForwardHeaders.add (headers : ForwardHeaders) (line : List Char) : ForwardHeaders :=
  let lower := toAsciiLowercase line
  if isProxyField lower then headers
  else if isField "connection:" lower then
    { headers with output := headers.output ++ connectionClose, hasConnection := true }
  else
    let rewrittenLine :=
      match secretResolver with
      | some resolver => rewriteHeaderLine base64 resolver line
      | none => line
    { headers with
      output := headers.output ++ utf8Encode rewrittenLine ++ crlf
      hasVia := headers.hasVia || isField "via:" lower }

def forwardRequestLine (line path : List Char) : List Char :=
  match splitn ' ' 3 line with
  | [method, _, version] => method ++ ' ' :: path ++ ' ' :: version
  | _ => line

def forwardHeaderEnd (raw : List UInt8) : Nat := (headerEnd raw).getD raw.length

/-- The header block in origin form, up to and with its blank line. -/
def forwardHeader (raw : List UInt8) (path : List Char) : List UInt8 :=
  let lines := splitCrlf (utf8DecodeLossy (raw.take (forwardHeaderEnd raw)))
  let requestLine := utf8Encode (forwardRequestLine (lines.headD []) path) ++ crlf
  let headers := (lines.tail.takeWhile (!·.isEmpty)).foldl (ForwardHeaders.add base64 secretResolver) { output := requestLine }
  headers.output ++ (if headers.hasConnection then [] else connectionClose) ++
    (if headers.hasVia then [] else viaSandbox) ++ crlf

def rewriteForwardRequest (raw : List UInt8) (path : List Char) :
    Except UnresolvedPlaceholderError (List UInt8) :=
  let output := forwardHeader base64 secretResolver raw path ++ raw.drop (forwardHeaderEnd raw)
  if secretResolver.isSome && hasPlaceholder (utf8DecodeLossy output) then .error ⟨.header⟩ else .ok output

end Rewriting

/-! The connection. -/

/-- What a connection to the proxy depends on besides the client's bytes. -/
structure Proxy where
  base64 : Base64
  engine : OpaEngine
  identity : Except IdentityError Identity
  dialer : Dialer
  connect : List SocketAddr → Except String ByteStream
  secretResolver : Option SecretResolver := none

/-- What becomes of a connection to one of the addresses. -/
inductive Link where
  | unreachable (error : String)
  | established (client upstream : ByteStream)
  | unresolved (error : UnresolvedPlaceholderError)
  | forwarded (sent : List UInt8)

structure Destination where
  host : List Char
  port : UInt16
deriving DecidableEq

inductive Outcome where
  | closed
  | tooLarge
  | failed (error : String)
  | badRequest (error : String)
  | useConnect
  | inference (port : UInt16)
  | denied (reason : String)
  | requestDenied (reason : String)
  | blocked (reason : String)
  | dialled (destination : Destination) (addrs : List SocketAddr) (link : Link)

inductive HeaderRead where
  | closed
  | tooLarge
  | failed (error : String)
  | found (buf : List UInt8) (client : ByteStream)

/-- Every read brings at least one byte, so there are at most as many as the buffer has room for. -/
def readHeaderFor : Nat → List UInt8 → ByteStream → HeaderRead
  | 0, _, _ => .tooLarge
  | fuel + 1, buf, client =>
    if buf.length = maxProxyHeaderBytes then .tooLarge
    else
      match client.read (maxProxyHeaderBytes - buf.length) with
      | .closed => .closed
      | .failed error => .failed error.text
      | .data block rest =>
        if (headerEnd (buf ++ block)).isSome then .found (buf ++ block) rest
        else readHeaderFor fuel (buf ++ block) rest

def readHeader (client : ByteStream) : HeaderRead := readHeaderFor (maxProxyHeaderBytes + 1) [] client

namespace Proxy

variable (proxy : Proxy)

def decision (host : List Char) (port : UInt16) : ConnectDecision :=
  evaluateOpaTcp proxy.engine proxy.identity (String.ofList (toAsciiLowercase host)) port

def resolveUpstream (decision : ConnectDecision) (host : List Char) (port : UInt16) : Except String (List SocketAddr) :=
  proxy.dialer.resolveUpstream proxy.engine decision (String.ofList host)
    (String.ofList (toAsciiLowercase host)) port

def handleConnect (target : List Char) (client : ByteStream) : Outcome :=
  match parseTarget target with
  | .error error => .failed error
  | .ok (host, port) =>
    if toAsciiLowercase host = inferenceLocalHost then .inference port
    else
      let decision := proxy.decision host port
      match decision.action with
      | .deny reason => .denied reason
      | .allow _ =>
        match proxy.resolveUpstream decision host port with
        | .error reason => .blocked reason
        | .ok addrs =>
          .dialled ⟨host, port⟩ addrs <|
            match proxy.connect addrs with
            | .error error => .unreachable error
            | .ok upstream => .established client upstream

def forwardCtx (decision : ConnectDecision) (matchedPolicy : Option String) (host : List Char) (port : UInt16) :
    L7EvalContext where
  host := String.ofList (toAsciiLowercase host)
  port := port
  policyName := matchedPolicy.getD ""
  binaryPath := decision.binary.getD ""
  ancestors := decision.ancestors
  cmdlinePaths := decision.cmdlinePaths
  secretResolver := proxy.secretResolver

/-- A target whose query cannot be read is taken for a path. -/
def forwardRequestInfo (method path : List Char) : L7RequestInfo :=
  let (target, queryParams) := ((parseTargetQuery path).toOption).getD (path, ∅)
  { action := method, target, queryParams }

/-- The inspection of the one request: the reason it is refused for, if it is. -/
def evaluateForward (decision : ConnectDecision) (matchedPolicy : Option String) (method : List Char)
    (host : List Char) (port : UInt16) (path : List Char) : Option String :=
  match queryL7Config proxy.engine decision (String.ofList (toAsciiLowercase host)) port with
  | none => none
  | some config =>
    let (allowed, reason) := evaluateL7Request proxy.engine (proxy.forwardCtx decision matchedPolicy host port)
      (forwardRequestInfo method path)
    if !allowed && config.enforcement = .enforce then some reason else none

/-- The rewritten request is written, and what comes from the client after it is copied as it comes. -/
def forward (buf : List UInt8) (path : List Char) (client : ByteStream) : Link :=
  match rewriteForwardRequest proxy.base64 proxy.secretResolver buf path with
  | .error error => .unresolved error
  | .ok rewritten => .forwarded (rewritten ++ client.bytes)

def handleForwardProxy (method targetUri : List Char) (buf : List UInt8) (client : ByteStream) : Outcome :=
  match parseProxyUri targetUri with
  | .error error => .badRequest error
  | .ok uri =>
    if uri.scheme = "https".toList then .useConnect
    else
      let decision := proxy.decision uri.host uri.port
      match decision.action with
      | .deny reason => .denied reason
      | .allow matchedPolicy =>
        match proxy.evaluateForward decision matchedPolicy method uri.host uri.port uri.path with
        | some reason => .requestDenied reason
        | none =>
          match proxy.resolveUpstream decision uri.host uri.port with
          | .error reason => .blocked reason
          | .ok addrs =>
            .dialled ⟨uri.host, uri.port⟩ addrs <|
              match proxy.connect addrs with
              | .error error => .unreachable error
              | .ok _ => proxy.forward buf uri.path client

def handleTcpConnection (client : ByteStream) : Outcome :=
  match readHeader client with
  | .closed => .closed
  | .tooLarge => .tooLarge
  | .failed error => .failed error
  | .found buf rest =>
    let parts := splitWhitespace (firstLine (utf8DecodeLossy buf))
    let method := parts.headD []
    let target := (parts.drop 1).headD []
    if method = "CONNECT".toList then proxy.handleConnect target rest
    else proxy.handleForwardProxy method target buf rest

end Proxy

end OpenShell.Sandbox
