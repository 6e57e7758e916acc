import OpenShell.Sandbox.Framing
import OpenShell.Sandbox.HeaderSecrets
import OpenShell.Sandbox.OriginForm
import OpenShell.Sandbox.RequestLine

namespace OpenShell.Sandbox

open Text Net Streams Results

/-! What a forwarded connection carries upstream. -/

/-! The header that is read is the one at the start of the client's bytes, however they arrive. -/

section Header

variable {fuel : Nat} {buf held : List UInt8} {client rest : ByteStream} {endsAt : Nat}

theorem readHeaderFor_found (found : readHeaderFor fuel held client = .found buf rest) :
    held ++ client.bytes = buf ++ rest.bytes ∧ (headerEnd buf).isSome = true := by
  induction fuel generalizing held client with
  | zero => cases found
  | succ fuel ih =>
    rw [readHeaderFor] at found
    split at found
    · cases found
    · split at found
      · cases found
      · cases found
      · rename_i block later delivered
        obtain ⟨parts, _⟩ := ByteStream.read_data delivered
        split at found
        · rename_i complete
          cases found
          exact ⟨by rw [parts, List.append_assoc], complete⟩
        · obtain ⟨same, complete⟩ := ih found
          exact ⟨by rw [parts, ← List.append_assoc, same], complete⟩

theorem forwardHeader_append (base64 : Base64) (resolver : Option SecretResolver) (ended : headerEnd buf = some endsAt)
    (more : List UInt8) (path : List Char) :
    forwardHeader base64 resolver (buf ++ more) path = forwardHeader base64 resolver buf path := by
  obtain ⟨endedToo, bound, _⟩ := headerEnd_append ended more
  unfold forwardHeader forwardHeaderEnd
  rw [ended, endedToo, Option.getD_some, Option.getD_some, List.take_append_of_le_length bound]

/-- The request line does not depend on what follows the header block. -/
theorem firstLine_take (ended : headerEnd buf = some endsAt) :
    firstLine (utf8DecodeLossy (buf.take endsAt)) = firstLine (utf8DecodeLossy buf) := by
  obtain ⟨_, _, lines, header⟩ := headerEnd_append ended []
  have decoded : ∀ after : List UInt8, firstLine (utf8DecodeLossy (lines ++ (crlf ++ after))) =
      firstLine (utf8DecodeLossy lines ++ crlfText) := by
    intro after
    have cut := utf8DecodeLossy_around lines after '\r' ['\n']
    rw [show utf8Encode ['\r', '\n'] = crlf from utf8Encode_crlfText] at cut
    rw [cut]
    exact firstLine_append _ _
  have whole := List.take_append_drop endsAt buf
  rw [header] at whole ⊢
  rw [← whole, List.append_assoc, List.append_assoc, decoded, decoded]

end Header

/-! The request that the policy is asked about. -/

def requestMethod (bytes : List UInt8) : List Char := (splitWhitespace (requestLineOf bytes)).headD []

def requestUri (bytes : List UInt8) : List Char := ((splitWhitespace (requestLineOf bytes)).drop 1).headD []

section Words

variable {bytes : List UInt8} {word : List Char} {uri : ProxyUri}

theorem splitAuthority_path {whole rest authority path : List Char}
    (ran : splitAuthority whole rest = .ok (authority, path)) : path = ['/'] ∨ path <:+ rest := by
  unfold splitAuthority at ran
  split at ran
  · split at ran
    · cases ran
    · simp only at ran
      split at ran
      · cases ran
        right
        exact (List.drop_suffix _ _).trans (List.drop_suffix _ _)
      · cases ran
        exact .inl rfl
  · split at ran
    · cases ran
      right
      exact List.drop_suffix _ _
    · cases ran
      exact .inl rfl

theorem isWord_path (isWord : IsWord word) (parsed : parseProxyUri word = .ok uri) : IsWord uri.path := by
  unfold parseProxyUri at parsed
  split at parsed
  · cases parsed
  · rename_i scheme rest found
    obtain ⟨⟨authority, path⟩, ran, parsed⟩ := ok_of_bind parsed
    obtain ⟨⟨host, port⟩, _, parsed⟩ := ok_of_bind parsed
    simp only at parsed
    split at parsed
    · cases parsed
    · cases parsed
      have slash : IsWord ['/'] := ⟨List.cons_ne_nil _ _, plain_of_all (by decide)⟩
      by_cases empty : path.isEmpty = true
      · simp only [empty, if_true]
        exact slash
      · simp only [empty, Bool.false_eq_true, if_false]
        rcases splitAuthority_path ran with same | suffix
        · rw [same]
          exact slash
        · refine ⟨by simpa using empty, ?_⟩
          obtain ⟨offset, _, cut⟩ := Option.map_eq_some_iff.mp found
          cases cut
          intro c member
          exact isWord.2 c ((suffix.trans (List.drop_suffix _ _)).subset member)

theorem isWord_request (parsed : parseProxyUri (requestUri bytes) = .ok uri) :
    IsWord (requestMethod bytes) ∧ IsWord (requestUri bytes) := by
  unfold requestMethod requestUri at *
  have words : ∀ word ∈ splitWhitespace (requestLineOf bytes), IsWord word := fun _ member => isWord_of_mem member
  cases split : splitWhitespace (requestLineOf bytes) with
  | nil =>
    rw [split] at parsed
    cases parsed
  | cons first others =>
    cases others with
    | nil =>
      rw [split] at parsed
      cases parsed
    | cons second others =>
      rw [split] at words
      exact ⟨words first (by simp), words second (by simp)⟩

end Words

/-! The header block that is sent. -/

section Block

variable {base64 : Base64} {resolver : Option SecretResolver} {bytes : List UInt8} {endsAt : Nat}
  {line method path : List Char}

/-- The header lines of the client. -/
def headerFieldLines (header : List Char) : List (List Char) := (splitCrlf header).tail.takeWhile (!·.isEmpty)

def closeField : List Char := "Connection: close".toList

def viaField : List Char := "Via: 1.1 openshell-sandbox".toList

/-- What is sent for a header line. -/
def sentLine (base64 : Base64) (secretResolver : Option SecretResolver) (line : List Char) : List (List Char) :=
  if isProxyField (toAsciiLowercase line) then []
  else if isField "connection:" (toAsciiLowercase line) then [closeField]
  else [secretResolver.elim line fun resolver => rewriteHeaderLine base64 resolver line]

theorem add_output (headers : ForwardHeaders) (line : List Char) :
    (headers.add base64 resolver line).output =
      headers.output ++ utf8Encode (withBreaks (sentLine base64 resolver line)) := by
  unfold ForwardHeaders.add sentLine
  simp only
  split
  · exact (List.append_nil _).symm
  · split
    · rfl
    · cases resolver <;>
        simp only [withBreaks, List.flatMap_cons, List.flatMap_nil, List.append_nil, utf8Encode_append,
          utf8Encode_crlfText, List.append_assoc, Option.elim_some, Option.elim_none]

theorem foldl_output (lines : List (List Char)) (headers : ForwardHeaders) :
    (lines.foldl (ForwardHeaders.add base64 resolver) headers).output =
      headers.output ++ utf8Encode (withBreaks (lines.flatMap (sentLine base64 resolver))) := by
  induction lines generalizing headers with
  | nil => exact (List.append_nil _).symm
  | cons line lines ih =>
    rw [List.foldl_cons, ih, add_output, List.append_assoc, ← utf8Encode_append, List.flatMap_cons, withBreaks, withBreaks,
      withBreaks, List.flatMap_append]

/-- The lines that are sent: the request line, what is sent for the header lines, and fields of the proxy's own. -/
theorem forwardHeader_text (base64 : Base64) (resolver : Option SecretResolver) (raw : List UInt8) (path : List Char) :
    ∃ own, (∀ line ∈ own, line = closeField ∨ line = viaField) ∧
      forwardHeader base64 resolver raw path = utf8Encode (withBreaks
        (forwardRequestLine (firstLine (utf8DecodeLossy (raw.take (forwardHeaderEnd raw)))) path ::
          ((headerFieldLines (utf8DecodeLossy (raw.take (forwardHeaderEnd raw)))).flatMap (sentLine base64 resolver) ++
            own)) ++ crlfText) := by
  unfold forwardHeader headerFieldLines firstLine
  simp only [foldl_output]
  generalize ((splitCrlf (utf8DecodeLossy (raw.take (forwardHeaderEnd raw)))).tail.takeWhile (!·.isEmpty)).foldl
    (ForwardHeaders.add base64 resolver) _ = headers
  have closes : connectionClose = utf8Encode (withBreaks [closeField]) := by decide
  have passes : viaSandbox = utf8Encode (withBreaks [viaField]) := by decide
  refine ⟨(if headers.hasConnection then [] else [closeField]) ++ (if headers.hasVia then [] else [viaField]), ?_, ?_⟩
  · intro line member
    rcases List.mem_append.mp member with inside | inside
    · split at inside
      · cases inside
      · exact .inl (List.mem_singleton.mp inside)
    · split at inside
      · cases inside
      · exact .inr (List.mem_singleton.mp inside)
  · rw [closes, passes]
    cases headers.hasConnection <;> cases headers.hasVia <;>
      simp only [withBreaks, List.flatMap_cons, List.flatMap_append, utf8Encode_append, utf8Encode_crlfText,
        List.append_assoc, List.flatMap_nil, List.append_nil, Bool.false_eq_true, if_false, if_true, List.nil_append]

/-- The bytes are a header block of these lines: the blank line at its end is the only one. -/
structure HeaderBlock (lines : List (List Char)) (block : List UInt8) : Prop where
  text : block = utf8Encode (withBreaks lines ++ crlfText)
  ends : headerEnd block = some block.length

/-- What is sent for a header line: the line, which only a placeholder changes, or the proxy's own field. -/
def SentFor (base64 : Base64) (line field : List Char) : Prop :=
  if isField "connection:" (toAsciiLowercase line) then field = closeField else LineKept base64 line field

/-- The fields that are sent with a request: one for each header line of the client that is not for the proxy, in their
order, and behind them fields of the proxy's own. -/
def SentFields (base64 : Base64) (header : List Char) (fields : List (List Char)) : Prop :=
  ∃ sent own, fields = sent ++ own ∧ (∀ line ∈ own, line = closeField ∨ line = viaField) ∧
    List.Forall₂ (SentFor base64)
      ((headerFieldLines header).filter fun line => !isProxyField (toAsciiLowercase line)) sent

theorem sentFor_lines (standard : base64.Standard) {lines : List (List Char)}
    (whole : ∀ line ∈ lines, ¬ crlfText <:+: line) :
    List.Forall₂ (SentFor base64) (lines.filter fun line => !isProxyField (toAsciiLowercase line))
      (lines.flatMap (sentLine base64 resolver)) := by
  induction lines with
  | nil => exact .nil
  | cons line lines ih =>
    have later := ih fun line member => whole line (List.mem_cons_of_mem _ member)
    rw [List.flatMap_cons, sentLine]
    by_cases proxied : isProxyField (toAsciiLowercase line) = true
    · rw [List.filter_cons_of_neg (by simpa using proxied), if_pos proxied]
      exact later
    · rw [List.filter_cons_of_pos (by simpa using proxied), if_neg proxied]
      by_cases connection : isField "connection:" (toAsciiLowercase line) = true
      · rw [if_pos connection]
        refine .cons ?_ later
        rw [SentFor, if_pos connection]
      · rw [if_neg connection]
        refine .cons ?_ later
        rw [SentFor, if_neg connection]
        have clean := whole line List.mem_cons_self
        cases resolver with
        | none => exact ⟨clean, rfl, Iff.rfl, fun _ => rfl⟩
        | some resolver => exact rewriteHeaderLine_kept standard clean

theorem headerFieldLines_whole {header line : List Char} (member : line ∈ headerFieldLines header) :
    line ≠ [] ∧ ¬ crlfText <:+: line := by
  constructor
  · intro empty
    have taken := List.mem_takeWhile_imp member
    rw [empty] at taken
    cases taken
  · exact crlf_notInfix_line (List.mem_of_mem_tail ((List.takeWhile_sublist _).mem member))

/-- A field that is sent for a header line is not empty and does not break. -/
theorem field_whole {line field : List Char} (sent : SentFor base64 line field) (filled : line ≠ []) :
    field ≠ [] ∧ ¬ crlfText <:+: field := by
  unfold SentFor at sent
  split at sent
  · rw [sent]
    decide
  · exact ⟨fun empty => filled (sent.filled.mp empty), sent.whole⟩

theorem sent_whole {lines sent : List (List Char)} {field : List Char}
    (each : List.Forall₂ (SentFor base64) lines sent) (filled : ∀ line ∈ lines, line ≠ []) (member : field ∈ sent) :
    field ≠ [] ∧ ¬ crlfText <:+: field := by
  induction each with
  | nil => cases member
  | cons sentFor _ ih =>
    rcases List.mem_cons.mp member with rfl | later
    · exact field_whole sentFor (filled _ List.mem_cons_self)
    · exact ih (fun line inside => filled line (List.mem_cons_of_mem _ inside)) later

theorem fields_whole {header field : List Char} {fields : List (List Char)} (kept : SentFields base64 header fields)
    (member : field ∈ fields) : field ≠ [] ∧ ¬ crlfText <:+: field := by
  obtain ⟨sent, own, rfl, owned, each⟩ := kept
  rcases List.mem_append.mp member with inside | added
  · exact sent_whole each (fun line inLines => (headerFieldLines_whole (List.mem_of_mem_filter inLines)).1) inside
  · rcases owned field added with rfl | rfl <;> decide

theorem firstLine_header (ended : headerEnd bytes = some endsAt) :
    firstLine (utf8DecodeLossy (bytes.take (forwardHeaderEnd bytes))) = requestLineOf bytes := by
  rw [forwardHeaderEnd, ended]
  exact firstLine_take ended

theorem crlf_notInfix_word (isWord : IsWord path) : ¬ crlfText <:+: path := by
  intro found
  have white := isWord.2 '\r' (found.subset (by decide))
  revert white
  decide

theorem crlf_notInfix_forwardRequestLine (whole : ¬ crlfText <:+: line) (isPath : IsWord path) :
    ¬ crlfText <:+: forwardRequestLine line path := by
  unfold forwardRequestLine
  split
  · rename_i first second third cut
    obtain ⟨parts, _, _⟩ := splitn_three_iff.mp cut
    intro found
    have apart : ' ' ∉ crlfText := by decide
    rw [List.append_assoc, List.cons_append] at found
    rcases infix_append_cons apart found with inFirst | found
    · apply whole
      rw [parts]
      exact inFirst.trans (List.prefix_append _ _).isInfix
    · rcases infix_append_cons apart found with inPath | inThird
      · exact crlf_notInfix_word isPath inPath
      · apply whole
        rw [parts]
        exact inThird.trans ⟨first ++ ' ' :: (second ++ [' ']), [], by simp⟩
  · exact whole

theorem forwardRequestLine_iff (isMethod : IsWord method) (isPath : IsWord path) {version : List Char} :
    forwardRequestLine line path = method ++ ' ' :: (path ++ ' ' :: version) ↔
      ∃ skipped, splitn ' ' 3 line = [method, skipped, version] := by
  have noSpace : ∀ {word : List Char}, IsWord word → ' ' ∉ word := by
    intro word isWord member
    have white := isWord.2 ' ' member
    revert white
    decide
  constructor
  · intro same
    unfold forwardRequestLine at same
    split at same
    · rename_i first second third cut
      obtain ⟨_, absent, _⟩ := splitn_three_iff.mp cut
      rw [List.append_assoc, List.cons_append] at same
      have once := splitOnce_append absent (path ++ ' ' :: third)
      rw [same, splitOnce_append (noSpace isMethod), Option.some.injEq, Prod.mk.injEq, List.append_cancel_left_eq,
        List.cons.injEq] at once
      rw [cut, once.1, once.2.2]
      exact ⟨second, rfl⟩
    · rename_i other
      have cut : splitn ' ' 3 line = [method, path, version] :=
        splitn_three_iff.mpr ⟨same, noSpace isMethod, noSpace isPath⟩
      exact absurd cut (other _ _ _)
  · rintro ⟨skipped, cut⟩
    unfold forwardRequestLine
    rw [cut]
    simp

/-- The block begins with a request line for the method and the path if the client's line gives the method and a
    version at its first two spaces. -/
theorem requestLine_sent_iff (ended : headerEnd bytes = some endsAt) (isMethod : IsWord method) (isPath : IsWord path)
    {version : List Char} (isVersion : IsWord version) :
    (∃ fields, forwardHeader base64 resolver bytes path =
        utf8Encode ((method ++ ' ' :: (path ++ ' ' :: version)) ++ crlfText) ++ fields) ↔
      ∃ skipped, splitn ' ' 3 (requestLineOf bytes) = [method, skipped, version] := by
  obtain ⟨own, _, text⟩ := forwardHeader_text base64 resolver bytes path
  have block : ∃ fields, forwardHeader base64 resolver bytes path =
      utf8Encode (forwardRequestLine (requestLineOf bytes) path ++ crlfText) ++ fields := by
    rw [text, firstLine_header ended, withBreaks, List.flatMap_cons, List.append_assoc, utf8Encode_append]
    exact ⟨_, rfl⟩
  obtain ⟨fields, block⟩ := block
  rw [← forwardRequestLine_iff isMethod isPath, block]
  have whole : ¬ crlfText <:+: forwardRequestLine (requestLineOf bytes) path :=
    crlf_notInfix_forwardRequestLine (crlf_notInfix_firstLine _) isPath
  constructor
  · rintro ⟨others, same⟩
    have apart : ' ' ∉ crlfText := by decide
    have wholeToo : ¬ crlfText <:+: method ++ ' ' :: (path ++ ' ' :: version) := by
      intro found
      rcases infix_append_cons apart found with inMethod | found
      · exact crlf_notInfix_word isMethod inMethod
      · rcases infix_append_cons apart found with inPath | inVersion
        · exact crlf_notInfix_word isPath inPath
        · exact crlf_notInfix_word isVersion inVersion
    have lines := congrArg (fun sent => firstLine (utf8DecodeLossy sent)) same
    simp only [utf8DecodeLossy_append, List.append_assoc] at lines
    rw [firstLine_whole whole] at lines
    rw [lines]
    have own := firstLine_whole wholeToo (utf8DecodeLossy others)
    simpa only [List.append_assoc, List.cons_append] using own
  · intro same
    rw [same]
    exact ⟨fields, rfl⟩

/-- What is sent is one header block: the request line, and the fields for the client's. -/
theorem headerBlock_sent (standard : base64.Standard) (ended : headerEnd bytes = some endsAt) (isPath : IsWord path) :
    ∃ fields, HeaderBlock (forwardRequestLine (requestLineOf bytes) path :: fields)
        (forwardHeader base64 resolver bytes path) ∧
      SentFields base64 (utf8DecodeLossy (bytes.take endsAt)) fields := by
  obtain ⟨own, owned, text⟩ := forwardHeader_text base64 resolver bytes path
  rw [firstLine_header ended, forwardHeaderEnd, ended, Option.getD_some] at text
  generalize fieldsAre :
    (headerFieldLines (utf8DecodeLossy (bytes.take endsAt))).flatMap (sentLine base64 resolver) ++ own = fields at text
  have kept : SentFields base64 (utf8DecodeLossy (bytes.take endsAt)) fields :=
    ⟨_, own, fieldsAre.symm, owned, sentFor_lines standard fun _ member => (headerFieldLines_whole member).2⟩
  refine ⟨fields, ⟨text, ?_⟩, kept⟩
  have whole : ¬ crlfText <:+: forwardRequestLine (requestLineOf bytes) path :=
    crlf_notInfix_forwardRequestLine (crlf_notInfix_firstLine _) isPath
  obtain ⟨body, same, cut⟩ := block_of_lines whole fun field member => (fields_whole kept member).2
  have block := block_of_open cut (fun empty => (fields_whole kept empty).1 rfl) []
  rw [List.append_nil, ← same] at block
  rw [text, withBreaks, List.flatMap_cons, List.append_assoc, List.append_assoc]
  exact block.ends

end Block

/-- The bytes are the body of a message with this header block, or a start of it. -/
def BodyPart (header : List Char) (body : List UInt8) : Prop :=
  body = [] ∨ ∃ length framed, parseBodyLength header = .ok length ∧ Framed length framed framed ∧ body <+: framed

namespace Proxy

variable {proxy : Proxy} {client : ByteStream} {destination : Destination} {addrs : List SocketAddr}
  {sent : List UInt8} {endsAt : Nat} {uri : ProxyUri} {config : L7EndpointConfig}

/-- The bytes are one header block, of a request that the policy allowed, with at most the body of that request. The
block has the request line in origin form and the client's fields. -/
def SoleRequest (proxy : Proxy) (destination : Destination) (bytes : List UInt8) (endsAt : Nat) (path : List Char)
    (sent : List UInt8) : Prop :=
  proxy.engine.allowRequest (forwardRequestInfo (requestMethod bytes) path).data (proxy.input destination) = true ∧
    ∃ version fields block body, IsWord version ∧
      HeaderBlock ((requestMethod bytes ++ ' ' :: (path ++ ' ' :: version)) :: fields) block ∧
      SentFields proxy.base64 (utf8DecodeLossy (bytes.take endsAt)) fields ∧
      sent = block ++ body ∧ BodyPart (utf8DecodeLossy (bytes.take endsAt)) body

/-- A forwarded request went past the policy, and all that follows its header block goes with it. -/
structure Forwards (proxy : Proxy) (client : ByteStream) (destination : Destination) (endsAt : Nat) (uri : ProxyUri)
    (sent : List UInt8) : Prop where
  ended : headerEnd client.bytes = some endsAt
  parsed : parseProxyUri (requestUri client.bytes) = .ok uri
  named : destination = ⟨uri.host, uri.port⟩
  passed : ∃ matchedPolicy, (proxy.decision destination.host destination.port).action = .allow matchedPolicy ∧
    proxy.evaluateForward (proxy.decision destination.host destination.port) matchedPolicy
      (requestMethod client.bytes) destination.host destination.port uri.path = none
  sends : sent = forwardHeader proxy.base64 proxy.secretResolver client.bytes uri.path ++ client.bytes.drop endsAt

theorem forwards_of_forward {method targetUri : List Char} {buf : List UInt8} {rest : ByteStream}
    (ran : proxy.handleForwardProxy method targetUri buf rest = .dialled destination addrs (.forwarded sent)) :
    ∃ uri, parseProxyUri targetUri = .ok uri ∧ destination = ⟨uri.host, uri.port⟩ ∧
      (∃ matchedPolicy, (proxy.decision destination.host destination.port).action = .allow matchedPolicy ∧
        proxy.evaluateForward (proxy.decision destination.host destination.port) matchedPolicy method
          destination.host destination.port uri.path = none) ∧
      sent = forwardHeader proxy.base64 proxy.secretResolver buf uri.path ++
        (buf.drop (forwardHeaderEnd buf) ++ rest.bytes) := by
  unfold handleForwardProxy at ran
  split at ran
  · cases ran
  · rename_i uri parsed
    split at ran
    · cases ran
    · simp only at ran
      split at ran
      · cases ran
      · rename_i matchedPolicy allowed
        split at ran
        · cases ran
        · rename_i permitted
          split at ran
          · cases ran
          · simp only [Outcome.dialled.injEq] at ran
            obtain ⟨named, _, linked⟩ := ran
            split at linked
            · cases linked
            · unfold forward rewriteForwardRequest at linked
              simp only at linked
              refine ⟨uri, parsed, named.symm, ⟨matchedPolicy, ?_⟩, ?_⟩
              · rw [← named]
                exact ⟨allowed, permitted⟩
              · split at linked
                · cases linked
                · rename_i rewritten
                  split at rewritten
                  · cases rewritten
                  · cases rewritten
                    cases linked
                    rw [List.append_assoc]

theorem forwards_of_connection
    (ran : proxy.handleTcpConnection client = .dialled destination addrs (.forwarded sent)) :
    ∃ endsAt uri, proxy.Forwards client destination endsAt uri sent := by
  unfold handleTcpConnection at ran
  split at ran
  · cases ran
  · cases ran
  · cases ran
  · rename_i buf rest found
    obtain ⟨same, complete⟩ := readHeaderFor_found found
    obtain ⟨endsAt, ended⟩ := Option.isSome_iff_exists.mp complete
    obtain ⟨endedToo, bound, _⟩ := headerEnd_append ended rest.bytes
    rw [List.nil_append] at same
    have line : requestLineOf buf = requestLineOf client.bytes := by
      unfold requestLineOf
      rw [same, ← firstLine_take ended, ← firstLine_take endedToo, List.take_append_of_le_length bound]
    simp only at ran
    split at ran
    · unfold handleConnect at ran
      split at ran
      · cases ran
      · split at ran
        · cases ran
        · simp only at ran
          split at ran
          · cases ran
          · split at ran
            · cases ran
            · simp only [Outcome.dialled.injEq] at ran
              obtain ⟨_, _, linked⟩ := ran
              split at linked <;> cases linked
    · obtain ⟨uri, parsed, named, passed, sends⟩ := forwards_of_forward ran
      refine ⟨endsAt, uri, by rw [same]; exact endedToo, ?_, named, ?_, ?_⟩
      · rw [requestUri, ← line]
        exact parsed
      · rw [requestMethod, ← line]
        exact passed
      · rw [sends, same, forwardHeader_append _ _ ended, List.drop_append_of_le_length bound, forwardHeaderEnd, ended]
        rfl

theorem allowed_of_forwards (forwards : proxy.Forwards client destination endsAt uri sent)
    (configured : (proxy.tunnel destination).l7Config = some config) (enforced : config.enforcement = .enforce) :
    proxy.engine.allowRequest (forwardRequestInfo (requestMethod client.bytes) uri.path).data
      (proxy.input destination) = true := by
  obtain ⟨matchedPolicy, allowed, permitted⟩ := forwards.passed
  have kept := (evaluateForward_eq_none allowed configured).mp permitted
  by_contra refused
  exact kept ⟨enforced, by simpa using refused⟩

/-- A header block in front of other bytes is cut off in one way. -/
theorem append_inj_of_ends {first second body other : List UInt8} (ends : headerEnd first = some first.length)
    (endsToo : headerEnd second = some second.length) (same : first ++ body = second ++ other) :
    first = second ∧ body = other := by
  obtain ⟨before, -⟩ := headerEnd_append ends body
  obtain ⟨after, -⟩ := headerEnd_append endsToo other
  rw [same, after] at before
  exact List.append_inj same (Option.some.inj before).symm

/-- A connection carries one request exactly if its request line gives the method and a version at the first two
    spaces, and nothing but a body follows the header block. -/
theorem soleRequest_iff (standard : proxy.base64.Standard)
    (ran : proxy.handleTcpConnection client = .dialled destination addrs (.forwarded sent))
    (ended : headerEnd client.bytes = some endsAt) (parsed : parseProxyUri (requestUri client.bytes) = .ok uri)
    (configured : (proxy.tunnel destination).l7Config = some config) (enforced : config.enforcement = .enforce) :
    proxy.SoleRequest destination client.bytes endsAt uri.path sent ↔
      (∃ skipped version, splitn ' ' 3 (requestLineOf client.bytes) = [requestMethod client.bytes, skipped, version] ∧
        IsWord version) ∧
      BodyPart (utf8DecodeLossy (client.bytes.take endsAt)) (client.bytes.drop endsAt) := by
  obtain ⟨_, _, forwards⟩ := forwards_of_connection ran
  cases ended.symm.trans forwards.ended
  cases parsed.symm.trans forwards.parsed
  have allowed := allowed_of_forwards forwards configured enforced
  obtain ⟨isMethod, isUri⟩ := isWord_request parsed
  have isPath := isWord_path isUri parsed
  obtain ⟨fields, made, kept⟩ := @headerBlock_sent proxy.base64 proxy.secretResolver _ _ _ standard ended isPath
  constructor
  · rintro ⟨_, version, others, block, body, isVersion, isBlock, _, sends, part⟩
    rw [forwards.sends] at sends
    obtain ⟨same, rest⟩ := append_inj_of_ends made.ends isBlock.ends sends
    have line : ∃ fields, forwardHeader proxy.base64 proxy.secretResolver client.bytes uri.path =
        utf8Encode ((requestMethod client.bytes ++ ' ' :: (uri.path ++ ' ' :: version)) ++ crlfText) ++ fields := by
      rw [same, isBlock.text, withBreaks, List.flatMap_cons, List.append_assoc, utf8Encode_append]
      exact ⟨_, rfl⟩
    obtain ⟨skipped, cut⟩ := (requestLine_sent_iff ended isMethod isPath isVersion).mp line
    rw [rest]
    exact ⟨⟨skipped, version, cut, isVersion⟩, part⟩
  · rintro ⟨⟨skipped, version, cut, isVersion⟩, part⟩
    rw [(forwardRequestLine_iff isMethod isPath).mpr ⟨skipped, cut⟩] at made
    exact ⟨allowed, version, fields, _, _, isVersion, made, kept, forwards.sends, part⟩

end Proxy

section Example

def openProxy : Proxy := { getProxy with base64 := standardBase64, connect := fun _ => .ok noContent }

def loneRequest : List UInt8 := utf8Encode "GET http://api.example/a HTTP/1.1\r\n\r\n".toList

def loneClient : ByteStream where
  segments := [loneRequest]
  nonempty := by decide +kernel
  bounded := by decide +kernel

/-- A second request stands behind the first, in the same piece. -/
def trailingClient : ByteStream where
  segments := [loneRequest ++ utf8Encode "DELETE /b HTTP/1.1\r\n\r\n".toList]
  nonempty := by decide +kernel
  bounded := by decide +kernel

def Outcome.sent : Outcome → Option (Destination × List SocketAddr × List UInt8)
  | .dialled destination addrs (.forwarded sent) => some (destination, addrs, sent)
  | _ => none

theorem forwarded_of_sent {outcome : Outcome} {destination : Destination} {addrs : List SocketAddr} {sent : List UInt8}
    (sends : outcome.sent = some (destination, addrs, sent)) :
    outcome = .dialled destination addrs (.forwarded sent) := by
  unfold Outcome.sent at sends
  split at sends
  · cases sends
    rfl
  · cases sends

def sentForGet : List UInt8 :=
  utf8Encode "GET /a HTTP/1.1\r\nConnection: close\r\nVia: 1.1 openshell-sandbox\r\n\r\n".toList

theorem clients_send :
    (openProxy.handleTcpConnection loneClient).sent = some (getDestination, [⟨publicIp, 80⟩], sentForGet) ∧
      (openProxy.handleTcpConnection trailingClient).sent = some (getDestination, [⟨publicIp, 80⟩],
        sentForGet ++ utf8Encode "DELETE /b HTTP/1.1\r\n\r\n".toList) ∧
      (openProxy.tunnel getDestination).l7Config = some ⟨.rest, .auto, .enforce⟩ := by
  decide +kernel

theorem loneClient_sends : openProxy.handleTcpConnection loneClient =
    .dialled getDestination [⟨publicIp, 80⟩] (.forwarded sentForGet) :=
  forwarded_of_sent clients_send.1

theorem trailingClient_sends : openProxy.handleTcpConnection trailingClient =
    .dialled getDestination [⟨publicIp, 80⟩]
      (.forwarded (sentForGet ++ utf8Encode "DELETE /b HTTP/1.1\r\n\r\n".toList)) :=
  forwarded_of_sent clients_send.2.1

theorem openProxy_configured : (openProxy.tunnel getDestination).l7Config = some ⟨.rest, .auto, .enforce⟩ :=
  clients_send.2.2

/-- The second request is sent although it was never shown to the policy. -/
theorem trailingClient_sends_both :
    openProxy.handleTcpConnection trailingClient = .dialled getDestination [⟨publicIp, 80⟩]
        (.forwarded (sentForGet ++ utf8Encode "DELETE /b HTTP/1.1\r\n\r\n".toList)) ∧
      (openProxy.tunnel getDestination).l7Config = some ⟨.rest, .auto, .enforce⟩ ∧
      ¬ openProxy.SoleRequest getDestination trailingClient.bytes 37 "/a".toList
        (sentForGet ++ utf8Encode "DELETE /b HTTP/1.1\r\n\r\n".toList) := by
  refine ⟨trailingClient_sends, openProxy_configured, ?_⟩
  rintro ⟨_, version, fields, block, body, _, isBlock, _, sends, part⟩
  have ends : headerEnd sentForGet = some sentForGet.length := by decide +kernel
  obtain ⟨-, rest⟩ := Proxy.append_inj_of_ends ends isBlock.ends sends
  have bodiless : parseBodyLength (utf8DecodeLossy (trailingClient.bytes.take 37)) = .ok .none := by
    decide +kernel
  rcases part with empty | ⟨length, framed, read, whole, starts⟩
  · rw [← rest] at empty
    cases empty
  · rw [bodiless] at read
    cases read
    cases whole
    rw [List.prefix_nil, ← rest] at starts
    cases starts

theorem loneClient_sends_one :
    openProxy.SoleRequest getDestination loneClient.bytes 37 "/a".toList sentForGet := by
  have parsed : parseProxyUri (requestUri loneClient.bytes) =
      .ok ⟨"http".toList, "api.example".toList, 80, "/a".toList⟩ := by
    decide +kernel
  apply (Proxy.soleRequest_iff standardBase64_standard loneClient_sends (by decide +kernel) parsed openProxy_configured
    rfl).mpr
  refine ⟨⟨"http://api.example/a".toList, "HTTP/1.1".toList, ?_, isWord_version⟩, .inl ?_⟩
  · decide +kernel
  · decide +kernel

end Example

end OpenShell.Sandbox
