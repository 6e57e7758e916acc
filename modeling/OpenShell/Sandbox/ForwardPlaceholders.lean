import OpenShell.Sandbox.ForwardedRequest

namespace OpenShell.Sandbox

open Text Net Streams Results

/-! Placeholders in a forwarded request: the scan of what is sent reads the request line as it stands, and not with its
percent signs decoded as the rewriter for the tunnel does. -/

def isKept (line : List Char) : Bool :=
  !isProxyField (toAsciiLowercase line) && !isField "connection:" (toAsciiLowercase line)

/-- The header lines that are rewritten and sent. -/
def keptLines (headerStr : List Char) : List (List Char) := (headerFieldLines headerStr).filter isKept

/-- The request line in origin form, before any credential is put in. -/
def originLine (headerStr path : List Char) : List Char := forwardRequestLine (firstLine headerStr) path

theorem forwardHeader_placeholders {raw : List UInt8} {headerStr : List Char} (base64 : Base64)
    (resolver : SecretResolver) (decoded : utf8Decode (raw.take (forwardHeaderEnd raw)) = some headerStr)
    (path : List Char) : ∃ own, (∀ line ∈ own, hasPlaceholder line = false) ∧
      forwardHeader base64 (some resolver) raw path = utf8Encode (withBreaks (originLine headerStr path ::
        ((headerFieldLines headerStr).flatMap (sentLine base64 (some resolver)) ++ own)) ++ crlfText) := by
  obtain ⟨own, owned, text⟩ := forwardHeader_text base64 (some resolver) raw path
  rw [← utf8Decode_eq_some decoded, utf8DecodeLossy_encode] at text
  refine ⟨own, ?_, text⟩
  intro line member
  rcases owned line member with rfl | rfl
  · decide
  · decide

/-! Where a placeholder is found in it. -/

section Scan

variable {base64 : Base64} {resolver : SecretResolver}

theorem sentLine_placeholder (lines : List (List Char)) :
    (∃ sent ∈ lines.flatMap (sentLine base64 (some resolver)), hasPlaceholder sent = true) ↔
      ∃ line ∈ lines.filter isKept, ∃ bytes, StaysBy base64 resolver line bytes := by
  have plain : hasPlaceholder closeField = false := by decide
  simp only [stays_iff]
  constructor
  · rintro ⟨sent, member, found⟩
    obtain ⟨line, inside, made⟩ := List.mem_flatMap.mp member
    unfold sentLine at made
    split at made
    · cases made
    · rename_i notProxy
      split at made
      · rw [List.mem_singleton.mp made, plain] at found
        cases found
      · rename_i notConnection
        refine ⟨line, List.mem_filter.mpr ⟨inside, ?_⟩, ?_⟩
        · simp [isKept, notProxy, notConnection]
        · rw [List.mem_singleton.mp made] at found
          exact found
  · rintro ⟨line, member, found⟩
    obtain ⟨inside, kept⟩ := List.mem_filter.mp member
    obtain ⟨notProxy, notConnection⟩ := Bool.and_eq_true_iff.mp kept
    refine ⟨_, List.mem_flatMap.mpr ⟨line, inside, ?_⟩, found⟩
    unfold sentLine
    rw [if_neg (by simpa using notProxy), if_neg (by simpa using notConnection)]
    exact List.mem_singleton_self _

end Scan

/-- A request in absolute form, with the text of its header block. -/
structure AbsoluteForm (raw : List UInt8) (headerStr : List Char) (uri : ProxyUri) : Prop where
  decoded : utf8Decode (raw.take (forwardHeaderEnd raw)) = some headerStr
  absolute : ∃ target ∈ (splitWhitespace (firstLine headerStr))[1]?, parseProxyUri target = .ok uri

section Forward

variable {base64 : Base64} {resolver : SecretResolver} {raw : List UInt8} {headerStr : List Char} {uri : ProxyUri}

theorem AbsoluteForm.isWord (form : AbsoluteForm raw headerStr uri) : IsWord uri.path := by
  obtain ⟨target, member, parsed⟩ := form.absolute
  exact isWord_path (isWord_of_mem (List.mem_of_getElem? member)) parsed

/-- The scan finds a placeholder in the request line, in one that stays in a header line, or in what follows the
block. -/
theorem scan_iff (form : AbsoluteForm raw headerStr uri) :
    hasPlaceholder (utf8DecodeLossy (forwardHeader base64 (some resolver) raw uri.path ++
        raw.drop (forwardHeaderEnd raw))) = true ↔
      hasPlaceholder (originLine headerStr uri.path) = true ∨
        (∃ line ∈ keptLines headerStr, ∃ bytes, StaysBy base64 resolver line bytes) ∨
        hasPlaceholder (utf8DecodeLossy (raw.drop (forwardHeaderEnd raw))) = true := by
  obtain ⟨own, clean, sent⟩ := forwardHeader_placeholders base64 resolver form.decoded uri.path
  have nowhere : ¬ ∃ line ∈ own, hasPlaceholder line = true := by
    rintro ⟨line, member, found⟩
    rw [clean line member] at found
    cases found
  have lines : ∀ first : List Char, ∀ lines : List (List Char),
      (∃ line ∈ first :: (lines ++ own), hasPlaceholder line = true) ↔
        hasPlaceholder first = true ∨ ∃ line ∈ lines, hasPlaceholder line = true := by
    intro first lines
    rw [List.exists_mem_cons_iff]
    simp only [List.mem_append, or_and_right, exists_or, or_iff_left nowhere]
  rw [sent, utf8DecodeLossy_append, List.append_assoc, hasPlaceholder_withBreaks, lines, sentLine_placeholder, or_assoc]
  rfl

theorem sent_firstLine (form : AbsoluteForm raw headerStr uri) (rest : List UInt8) :
    firstLine (utf8DecodeLossy (forwardHeader base64 (some resolver) raw uri.path ++ rest)) =
      originLine headerStr uri.path := by
  obtain ⟨own, _, sent⟩ := forwardHeader_placeholders base64 resolver form.decoded uri.path
  have whole : ¬ crlfText <:+: originLine headerStr uri.path :=
    crlf_notInfix_forwardRequestLine (crlf_notInfix_firstLine _) form.isWord
  rw [sent, utf8DecodeLossy_append, withBreaks, List.flatMap_cons]
  simp only [List.append_assoc]
  exact firstLine_whole whole _

end Forward

/-- The decoded request line of a forwarded request is free of placeholders exactly if that of the origin form is, or a
    placeholder that is spelled out elsewhere in the request makes the scan fail. -/
theorem forwarded_line_clean_iff (base64 : Base64) (resolver : SecretResolver) (raw : List UInt8) (headerStr : List Char)
    (uri : ProxyUri) (form : AbsoluteForm raw headerStr uri) :
    (∀ output, rewriteForwardRequest base64 (some resolver) raw uri.path = .ok output →
        hasPlaceholder (percentDecode (firstLine (utf8DecodeLossy output))) = false) ↔
      hasPlaceholder (percentDecode (originLine headerStr uri.path)) = false ∨
        hasPlaceholder (originLine headerStr uri.path) = true ∨
        (∃ line ∈ keptLines headerStr, ∃ bytes, StaysBy base64 resolver line bytes) ∨
        hasPlaceholder (utf8DecodeLossy (raw.drop (forwardHeaderEnd raw))) = true := by
  rw [← @scan_iff base64 resolver raw headerStr uri form]
  unfold rewriteForwardRequest
  simp only [Option.isSome_some, Bool.true_and]
  cases scanned : hasPlaceholder (utf8DecodeLossy (forwardHeader base64 (some resolver) raw uri.path ++
    raw.drop (forwardHeaderEnd raw))) with
  | true =>
    refine iff_of_true ?_ (.inr rfl)
    intro output impossible
    cases impossible
  | false =>
    rw [or_iff_left Bool.false_ne_true, if_neg Bool.false_ne_true]
    constructor
    · intro clean
      have sent := clean _ rfl
      rw [sent_firstLine form] at sent
      exact sent
    · intro clean output same
      cases same
      rw [sent_firstLine form]
      exact clean

def encodedHeader : List Char := "GET http://h/%6Fpenshell:resolve:env:K HTTP/1.1\r\n\r\n".toList

def encodedUri : ProxyUri := ⟨"http".toList, "h".toList, 80, "/%6Fpenshell:resolve:env:K".toList⟩

theorem encodedHeader_absolute : AbsoluteForm (utf8Encode encodedHeader) encodedHeader encodedUri where
  decoded := by decide
  absolute := ⟨"http://h/%6Fpenshell:resolve:env:K".toList, by decide, by decide⟩

def encodedSent : List UInt8 := utf8Encode
  "GET /%6Fpenshell:resolve:env:K HTTP/1.1\r\nConnection: close\r\nVia: 1.1 openshell-sandbox\r\n\r\n".toList

/-- A placeholder with one letter percent-encoded is forwarded; the rewriter for the tunnel refuses it. -/
theorem encodedHeader_forwarded : AbsoluteForm (utf8Encode encodedHeader) encodedHeader encodedUri ∧
    rewriteForwardRequest noBase64 (some (keyResolver "s".toList)) (utf8Encode encodedHeader) encodedUri.path =
      .ok encodedSent ∧
    hasPlaceholder (percentDecode (firstLine (utf8DecodeLossy encodedSent))) = true ∧
    rewriteHttpHeaderBlock noBase64 (utf8Encode "GET /%6Fpenshell:resolve:env:K HTTP/1.1\r\n\r\n".toList)
      (some (keyResolver "s".toList)) = .error ⟨.path⟩ :=
  ⟨encodedHeader_absolute, by decide +kernel, by decide +kernel, rfl⟩

def plainHeader : List Char := "GET http://h/a HTTP/1.1\r\n\r\n".toList

theorem plainHeader_forwarded :
    AbsoluteForm (utf8Encode plainHeader) plainHeader ⟨"http".toList, "h".toList, 80, "/a".toList⟩ ∧
    (∀ output, rewriteForwardRequest noBase64 (some (keyResolver "s".toList)) (utf8Encode plainHeader) "/a".toList =
      .ok output → hasPlaceholder (percentDecode (firstLine (utf8DecodeLossy output))) = false) := by
  have form : AbsoluteForm (utf8Encode plainHeader) plainHeader ⟨"http".toList, "h".toList, 80, "/a".toList⟩ :=
    ⟨by decide +kernel, "http://h/a".toList, by decide +kernel, by decide +kernel⟩
  exact ⟨form, (forwarded_line_clean_iff _ _ _ _ _ form).mpr (.inl (by decide +kernel))⟩

end OpenShell.Sandbox
