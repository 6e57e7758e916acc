import Mathlib.Data.List.Nodup
import OpenShell.Lib.Results
import OpenShell.Lib.Utf8

namespace OpenShell.Sandbox

open Text

/-! Credential placeholders: what the child process is given in place of its secrets, and how they are put
back into the header block of a request on its way out. -/

/-- The engine `base64::engine::general_purpose::STANDARD`. -/
structure Base64 where
  decode : List Char → Option (List UInt8)
  encode : List UInt8 → List Char

def placeholderPrefix : List Char := "openshell:resolve:env:".toList

def credentialMark : List Char := "[CREDENTIAL]".toList

def isEnvKeyChar (c : Char) : Bool := c.isAlphanum || c = '_'

inductive Location where
  | header | queryParam | path
deriving DecidableEq

def Location.text : Location → String
  | .header => "header"
  | .queryParam => "query_param"
  | .path => "path"

structure UnresolvedPlaceholderError where
  location : Location
deriving DecidableEq

def UnresolvedPlaceholderError.text (error : UnresolvedPlaceholderError) : String :=
  "unresolved credential placeholder in " ++ error.location.text ++
    ": detected openshell:resolve:env:* token that could not be resolved"

structure RewriteResult where
  rewritten : List UInt8
  redactedTarget : Option (List Char)

structure RewriteTargetResult where
  resolved : List Char
  redacted : List Char

def placeholderForEnvKey (key : List Char) : List Char := placeholderPrefix ++ key

/-- The secret of each placeholder, in the order in which the map is iterated. -/
structure SecretResolver where
  byPlaceholder : List (List Char × List Char)
  distinct : (byPlaceholder.map Prod.fst).Nodup
  placeholders : ∀ entry ∈ byPlaceholder, ∃ key, entry.1 = placeholderForEnvKey key

theorem placeholderForEnvKey_injective : Function.Injective placeholderForEnvKey :=
  fun _ _ => List.append_cancel_left

def SecretResolver.fromProviderEnv (providerEnv : List (List Char × List Char))
    (distinct : (providerEnv.map Prod.fst).Nodup) : List (List Char × List Char) × Option SecretResolver :=
  if providerEnv.isEmpty then ([], none)
  else
    (providerEnv.map fun (key, _) => (key, placeholderForEnvKey key),
      some {
        byPlaceholder := providerEnv.map fun (key, value) => (placeholderForEnvKey key, value)
        distinct := by
          rw [List.map_map]
          have keys : (Prod.fst ∘ fun entry : List Char × List Char => (placeholderForEnvKey entry.1, entry.2)) =
              placeholderForEnvKey ∘ Prod.fst := rfl
          rw [keys, ← List.map_map]
          exact distinct.map placeholderForEnvKey_injective
        placeholders := by
          intro entry member
          obtain ⟨source, _, same⟩ := List.mem_map.mp member
          exact ⟨source.1, by rw [← same]⟩ })

def validateResolvedSecret (value : List Char) : Except String (List Char) :=
  if value.any fun c => c = '\r' || c = '\n' || c = '\x00' then
    .error "resolved secret contains prohibited control characters (CR, LF, or NUL)"
  else .ok value

def SecretResolver.resolvePlaceholder (resolver : SecretResolver) (value : List Char) : Option (List Char) := do
  let secret ← resolver.byPlaceholder.lookup value
  (validateResolvedSecret secret).toOption

/-! Percent encoding. -/

def isUnreserved (c : Char) : Bool :=
  c.isAlphanum || c = '-' || c = '.' || c = '_' || c = '~'

def isSubDelim (c : Char) : Bool := "!$&'()*+,;=:@".toList.contains c

def upperHexDigit (digit : Nat) : Char := "0123456789ABCDEF".toList.getD digit '0'

def percentEncode (stays : Char → Bool) (input : List Char) : List Char :=
  (utf8Encode input).flatMap fun byte =>
    if stays (Char.ofNat byte.toNat) then [Char.ofNat byte.toNat]
    else ['%', upperHexDigit (byte.toNat / 16), upperHexDigit (byte.toNat % 16)]

def percentEncodeQuery (input : List Char) : List Char := percentEncode isUnreserved input

def percentEncodePathSegment (input : List Char) : List Char :=
  percentEncode (fun c => isUnreserved c || isSubDelim c) input

/-- The byte that two characters after a percent sign give. They are read as a number, so that a plus sign
    may stand in place of the first digit. -/
def hexByte (high low : UInt8) : Option UInt8 := do
  let text ← utf8Decode [high, low]
  let value ← parseUnsigned 16 256 text
  pure (UInt8.ofNat value)

def percentDecodeBytes : List UInt8 → List UInt8
  | [] => []
  | 0x25 :: high :: low :: bytes =>
    match hexByte high low with
    | some value => value :: percentDecodeBytes bytes
    | none => 0x25 :: high :: low :: percentDecodeBytes bytes
  | [0x25, high] => [0x25, high]
  | byte :: bytes => byte :: percentDecodeBytes bytes

def percentDecode (input : List Char) : List Char := utf8DecodeLossy (percentDecodeBytes (utf8Encode input))

def hasPlaceholder (text : List Char) : Bool := contains text placeholderPrefix

theorem hasPlaceholder_iff {text : List Char} : hasPlaceholder text = true ↔ placeholderPrefix <:+: text :=
  contains_iff_isInfixOf

theorem hasPlaceholder_eq_false_iff {text : List Char} :
    hasPlaceholder text = false ↔ position placeholderPrefix text = none := by
  rw [← Bool.not_eq_true, hasPlaceholder_iff, position_none_iff_notInfix]

/-! Header values. -/

section Values

variable (base64 : Base64) (resolver : SecretResolver)

def replacePlaceholders (text : List Char) : List (List Char × List Char) → Option (List Char)
  | [] => some text
  | (placeholder, secret) :: entries =>
    if contains text placeholder then
      match validateResolvedSecret secret with
      | .error _ => none
      | .ok secret => replacePlaceholders (replace placeholder secret text) entries
    else replacePlaceholders text entries

def SecretResolver.rewriteBasicAuthToken (encoded : List Char) : Option (List Char) := do
  let decodedBytes ← base64.decode (trim encoded)
  let decoded ← utf8Decode decodedBytes
  if !hasPlaceholder decoded then none
  else
    let rewritten ← replacePlaceholders decoded resolver.byPlaceholder
    if rewritten = decoded then none else some (base64.encode (utf8Encode rewritten))

def SecretResolver.rewriteHeaderValue (value : List Char) : Option (List Char) :=
  let trimmed := trim value
  match resolver.resolvePlaceholder trimmed with
  | some secret => some secret
  | none =>
    let token := ((stripPrefix "Basic ".toList trimmed).or (stripPrefix "basic ".toList trimmed)).map trim
    match token.bind (resolver.rewriteBasicAuthToken base64) with
    | some rewritten => some ("Basic ".toList ++ rewritten)
    | none => do
      let splitAt ← trimmed.findIdx? isWhitespace
      let secret ← resolver.resolvePlaceholder (trim (trimmed.drop splitAt))
      pure (trimmed.take splitAt ++ ' ' :: secret)

def rewriteHeaderLine (line : List Char) : List Char :=
  match splitOnce ':' line with
  | none => line
  | some (name, value) =>
    match resolver.rewriteHeaderValue base64 (trim value) with
    | some rewritten => name ++ ": ".toList ++ rewritten
    | none => line

end Values

/-! The request target. -/

def validateCredentialForPath (value : List Char) : Except String Unit :=
  if contains value "../".toList || contains value "..\\".toList || value = "..".toList then
    .error "credential contains path traversal sequence"
  else if value.any fun c => c = '\x00' || c = '\r' || c = '\n' then
    .error "credential contains control character"
  else if value.any fun c => c = '/' || c = '\\' then .error "credential contains path separator"
  else if value.any fun c => c = '?' || c = '#' then .error "credential contains URI delimiter"
  else .ok ()

section Target

variable (resolver : SecretResolver)

/-- The segment with the secrets in it, and with the mark in their place. Every placeholder takes up at
    least one character, so the length of the segment bounds how many there are. -/
def rewritePathSegmentFor : Nat → List Char → Except UnresolvedPlaceholderError (List Char × List Char)
  | 0, segment => .ok (segment, segment)
  | fuel + 1, segment =>
    match position placeholderPrefix segment with
    | none => .ok (segment, segment)
    | some start => do
      let literal := segment.take start
      let behind := segment.drop (start + placeholderPrefix.length)
      let key := behind.takeWhile isEnvKeyChar
      if key.isEmpty then
        let (resolved, redacted) ← rewritePathSegmentFor fuel behind
        pure (literal ++ placeholderPrefix ++ resolved, literal ++ placeholderPrefix ++ redacted)
      else
        match resolver.resolvePlaceholder (placeholderPrefix ++ key) with
        | none => .error ⟨.path⟩
        | some secret =>
          match validateCredentialForPath secret with
          | .error _ => .error ⟨.path⟩
          | .ok () =>
            let (resolved, redacted) ← rewritePathSegmentFor fuel (behind.drop key.length)
            pure (literal ++ secret ++ resolved, literal ++ credentialMark ++ redacted)

def rewritePathSegment (segment : List Char) : Except UnresolvedPlaceholderError (List Char × List Char) :=
  rewritePathSegmentFor resolver (segment.length + 1) segment

structure RewrittenPiece where
  resolved : List Char
  redacted : List Char
  rewritten : Bool

def joinPieces (separator : List Char) (pieces : List RewrittenPiece) : Option (List Char × List Char) :=
  if pieces.any (·.rewritten) then
    some (join separator (pieces.map (·.resolved)), join separator (pieces.map (·.redacted)))
  else none

def rewriteSegment (segment : List Char) : Except UnresolvedPlaceholderError RewrittenPiece := do
  let decoded := percentDecode segment
  if !hasPlaceholder decoded then pure ⟨segment, segment, false⟩
  else
    let (resolved, redacted) ← rewritePathSegment resolver decoded
    pure ⟨percentEncodePathSegment resolved, redacted, true⟩

def rewriteUriPath (path : List Char) : Except UnresolvedPlaceholderError (Option (List Char × List Char)) := do
  if !hasPlaceholder path then pure none
  else
    let pieces ← (split '/' path).mapM (rewriteSegment resolver)
    pure (joinPieces ['/'] pieces)

def rewriteParam (param : List Char) : Except UnresolvedPlaceholderError RewrittenPiece :=
  match splitOnce '=' param with
  | none => .ok ⟨param, param, false⟩
  | some (key, value) =>
    let decodedValue := percentDecode value
    match resolver.resolvePlaceholder decodedValue with
    | some secret => .ok ⟨key ++ '=' :: percentEncodeQuery secret, key ++ '=' :: credentialMark, true⟩
    | none => if hasPlaceholder decodedValue then .error ⟨.queryParam⟩ else .ok ⟨param, param, false⟩

def rewriteUriQueryParams (query : List Char) :
    Except UnresolvedPlaceholderError (Option (List Char × List Char)) := do
  if !hasPlaceholder query then pure none
  else
    let pieces ← (split '&' query).mapM (rewriteParam resolver)
    pure (joinPieces ['&'] pieces)

def rewriteUri (uri : List Char) : Except UnresolvedPlaceholderError RewriteTargetResult := do
  match splitOnce '?' uri with
  | none =>
    let (resolved, redacted) := (← rewriteUriPath resolver uri).getD (uri, uri)
    pure ⟨resolved, redacted⟩
  | some (path, query) =>
    let (resolvedPath, redactedPath) := (← rewriteUriPath resolver path).getD (path, path)
    let (resolvedQuery, redactedQuery) := (← rewriteUriQueryParams resolver query).getD (query, query)
    pure ⟨resolvedPath ++ '?' :: resolvedQuery, redactedPath ++ '?' :: redactedQuery⟩

def rewriteTargetForEval (target : List Char) : Except UnresolvedPlaceholderError RewriteTargetResult :=
  if !hasPlaceholder target then
    if hasPlaceholder (percentDecode target) then .error ⟨.path⟩ else .ok ⟨target, target⟩
  else rewriteUri resolver target

structure RewriteLineResult where
  line : List Char
  redactedTarget : Option (List Char)

def rewriteRequestLine (line : List Char) : Except UnresolvedPlaceholderError RewriteLineResult := do
  match splitn ' ' 3 line with
  | [method, uri, version] =>
    if !hasPlaceholder uri then pure ⟨line, none⟩
    else
      let target ← rewriteUri resolver uri
      pure ⟨method ++ ' ' :: target.resolved ++ ' ' :: version, some target.redacted⟩
  | _ => pure ⟨line, none⟩

end Target

/-! The header block. -/

def crlf : List UInt8 := [0x0D, 0x0A]

theorem utf8Encode_crlfText : utf8Encode crlfText = crlf := by decide

def headerEnd (raw : List UInt8) : Option Nat := (position (crlf ++ crlf) raw).map (· + 4)

def rewriteHttpHeaderBlock (base64 : Base64) (raw : List UInt8) (resolver : Option SecretResolver) :
    Except UnresolvedPlaceholderError RewriteResult :=
  match resolver, headerEnd raw with
  | none, _ => .ok ⟨raw, none⟩
  | some _, none => .ok ⟨raw, none⟩
  | some resolver, some headerEnd =>
    match splitCrlf (utf8DecodeLossy (raw.take headerEnd)) with
    | [] => .ok ⟨raw, none⟩
    | requestLine :: lines => do
      let rewrittenLine ← rewriteRequestLine resolver requestLine
      let headers := (lines.takeWhile (!·.isEmpty)).flatMap fun line =>
        utf8Encode (rewriteHeaderLine base64 resolver line) ++ crlf
      let output := utf8Encode rewrittenLine.line ++ crlf ++ headers ++ crlf ++ raw.drop headerEnd
      -- What is left of a placeholder in the output is an error, also in encoded form in the request line.
      let outputHeader := utf8DecodeLossy (output.take (headerEnd + 256))
      if hasPlaceholder outputHeader then .error ⟨.header⟩
      else if hasPlaceholder (percentDecode ((splitCrlf outputHeader).headD [])) then .error ⟨.path⟩
      else pure ⟨output, rewrittenLine.redactedTarget⟩

end OpenShell.Sandbox
