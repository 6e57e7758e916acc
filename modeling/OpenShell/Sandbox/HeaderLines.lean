import OpenShell.Lib.Base64
import OpenShell.Sandbox.RequestLine

namespace OpenShell.Sandbox

open Text Results

/-! The lines of a header block before and after the credentials are put in. -/

/-- What is documented of the engine: it reads and writes the standard alphabet and the padding, and reads back
    what it has written. -/
structure Base64.Standard (base64 : Base64) : Prop where
  alphabet : ∀ bytes, ∀ c ∈ base64.encode bytes, isBase64Char c = true
  reads : ∀ text bytes, base64.decode text = some bytes → ∀ c ∈ text, isBase64Char c = true
  inverse : ∀ bytes, base64.decode (base64.encode bytes) = some bytes
  empty : base64.encode [] = []

def standardBase64 : Base64 := ⟨base64Decode, base64Encode⟩

theorem standardBase64_standard : standardBase64.Standard := ⟨isBase64Char_encode, fun _ _ => isBase64Char_decode, base64Decode_encode, rfl⟩

def headerName (line : List Char) : Option (List Char) := (splitOnce ':' line).map Prod.fst

/-- The token of a value for Basic authentication. -/
def basicToken (value : List Char) : Option (List Char) :=
  ((stripPrefix "Basic ".toList (trim value)).or (stripPrefix "basic ".toList (trim value))).map trim

def basicText (base64 : Base64) (value : List Char) : Option (List Char) :=
  ((basicToken value).bind base64.decode).bind utf8Decode

/-- The token of the value is decoded to a text with a placeholder. -/
def hidesPlaceholder (base64 : Base64) (value : List Char) : Bool := (basicText base64 value).any hasPlaceholder

def lineHides (base64 : Base64) (line : List Char) : Bool :=
  ((splitOnce ':' line).map Prod.snd).any (hidesPlaceholder base64)

/-- The line has a placeholder, as it is or inside the token of its value. -/
def holdsPlaceholder (base64 : Base64) (line : List Char) : Bool := hasPlaceholder line || lineHides base64 line

/-- The block that is sent: it ends where this text ends, has as many lines with the same names, and differs
    only in lines with a placeholder. The bytes behind it are the same. -/
structure SameStructure (base64 : Base64) (lines : List (List Char)) (body sent : List UInt8) (text : List Char) :
    Prop where
  ends : headerEnd sent = some (utf8Encode text).length
  header : sent = utf8Encode text ++ body
  count : (splitCrlf text).length = lines.length
  names : (splitCrlf text).tail.map headerName = lines.tail.map headerName
  untouched : List.Forall₂ (fun line sentLine => holdsPlaceholder base64 line = false → sentLine = line) lines
    (splitCrlf text)

/-! Where a block ends. -/

section Ends

variable {text : List Char} {raw : List UInt8} {endsAt : Nat}

theorem utf8Encode_blank : utf8Encode (crlfText ++ crlfText) = crlf ++ crlf := by decide

theorem infix_of_blank {bytes : List UInt8} {text : List Char} (same : SameAscii bytes text) :
    crlf ++ crlf <:+: bytes ↔ crlfText ++ crlfText <:+: text := by
  have found := same.infix_iff (show Ascii (crlfText ++ crlfText) by decide) (by decide)
  rwa [← utf8Encode_ascii (by decide), utf8Encode_blank] at found

/-- Before its last line break, a text that ends in a blank line has no other one. -/
theorem blank_before {body : List Char} :
    crlfText ++ crlfText <:+: body ++ (crlfText ++ ['\r']) ↔ crlfText ++ crlfText <:+: body ++ crlfText := by
  rw [← List.append_assoc, List.infix_concat_iff, or_iff_right]
  rintro ⟨lead, same⟩
  have last := congrArg List.getLast? same
  simp [crlfText] at last

theorem headerEnd_encode {body : List Char} (open_body : ¬ crlfText ++ crlfText <:+: body ++ crlfText)
    (behind : List UInt8) :
    headerEnd (utf8Encode (body ++ (crlfText ++ crlfText)) ++ behind) =
      some (utf8Encode (body ++ (crlfText ++ crlfText))).length := by
  have found : position (crlf ++ crlf) (utf8Encode (body ++ (crlfText ++ crlfText))) = some (utf8Encode body).length := by
    apply position_eq_some_iff.mpr
    rw [utf8Encode_append, utf8Encode_blank]
    constructor
    · rw [List.drop_left]
    · intro earlier bound here
      -- An earlier blank line would end before the last line feed.
      have within : crlf ++ crlf <:+: utf8Encode (body ++ (crlfText ++ ['\r'])) := by
        have part : utf8Encode (body ++ (crlfText ++ ['\r'])) <+: utf8Encode body ++ (crlf ++ crlf) :=
          ⟨[0x0A], by rw [utf8Encode_append, List.append_assoc]; rfl⟩
        have length : (utf8Encode (body ++ (crlfText ++ ['\r']))).length = (utf8Encode body).length + 3 := by
          rw [utf8Encode_append, List.length_append]
          rfl
        have room : (crlf ++ crlf).length ≤ ((utf8Encode (body ++ (crlfText ++ ['\r']))).drop earlier).length := by
          rw [List.length_drop, length, show (crlf ++ crlf).length = 4 from rfl]
          omega
        have start := List.prefix_of_prefix_length_le here (List.IsPrefix.drop part earlier) room
        exact start.isInfix.trans (List.drop_suffix _ _).isInfix
      rw [infix_of_blank (sameAscii_encode _), blank_before] at within
      exact open_body within
  unfold headerEnd
  rw [position_append found, Option.map_some, utf8Encode_append, utf8Encode_blank, List.length_append]
  rfl

theorem header_cut (ended : headerEnd raw = some endsAt) : ∃ body,
    utf8DecodeLossy (raw.take endsAt) = body ++ (crlfText ++ crlfText) ∧
      ¬ crlfText ++ crlfText <:+: body ++ crlfText := by
  unfold headerEnd at ended
  obtain ⟨offset, found, rfl⟩ := Option.map_eq_some_iff.mp ended
  obtain ⟨before, after, cut, length, _, _⟩ := position_cut found
  have first := (position_eq_some_iff.mp found).2
  have taken : raw.take (offset + 4) = before ++ (crlf ++ crlf) := by
    rw [cut, ← List.append_assoc]
    apply List.take_left'
    rw [List.length_append, length]
    rfl
  -- A line break ends what is read of the bytes before it.
  have lossy : ∀ text : List Char, utf8DecodeLossy (before ++ utf8Encode ('\r' :: text)) =
      utf8DecodeLossy before ++ '\r' :: text := by
    intro text
    have around := utf8DecodeLossy_around before [] '\r' text
    rwa [List.append_nil, show utf8DecodeLossy [] = [] from rfl, List.append_nil] at around
  refine ⟨utf8DecodeLossy before, ?_, fun blank => ?_⟩
  · rw [taken, ← utf8Encode_blank]
    exact lossy _
  · have same := lossy ['\n']
    rw [show utf8DecodeLossy before ++ ['\r', '\n'] = utf8DecodeLossy before ++ crlfText from rfl] at same
    rw [← same, ← infix_of_blank (sameAscii_lossy _)] at blank
    obtain ⟨lead, behind, bytes⟩ := blank
    have total := congrArg List.length bytes
    have two : crlf.length = 2 := rfl
    rw [show utf8Encode ['\r', '\n'] = crlf from utf8Encode_crlfText] at bytes total
    simp only [List.length_append] at total
    apply first lead.length (by omega)
    rw [cut, List.append_assoc, ← List.append_assoc before, ← bytes]
    simp only [List.append_assoc, List.drop_left]
    exact ⟨behind ++ (crlf ++ after), by simp only [List.append_assoc]⟩

end Ends

/-! No credential breaks a line. -/

section Breaks

variable {base64 : Base64} {resolver : SecretResolver} {line : List Char}

theorem crlf_of_resolves {path sent : List Char} (resolves : Resolves resolver path sent)
    (found : crlfText <:+: sent) : crlfText <:+: path := by
  rcases resolves_cases resolves with ⟨_, rfl⟩ | ⟨_, pieces, each, rfl⟩
  · exact found
  · obtain ⟨text, member, holds⟩ := infix_of_join (by decide) (by decide) found
    obtain ⟨piece, pieceIn, rfl⟩ := List.mem_map.mp member
    obtain ⟨segment, segmentIn, ran⟩ := exists_of_forall₂ each pieceIn
    rcases rewriteSegment_resolved ran with same | ⟨text, same⟩
    · rw [same] at holds
      exact holds.trans (infix_of_mem_split segmentIn)
    · rw [same] at holds
      exact absurd (holds.subset (by decide)) (notMem_percentEncode (c := '\r') (by decide) (by decide) text)

theorem crlf_of_queryResolves {query sent : List Char} (resolves : QueryResolves resolver query sent)
    (found : crlfText <:+: sent) : crlfText <:+: query := by
  rcases queryResolves_cases resolves with rfl | ⟨pieces, each, rfl⟩
  · exact found
  · obtain ⟨text, member, holds⟩ := infix_of_join (by decide) (by decide) found
    obtain ⟨piece, pieceIn, rfl⟩ := List.mem_map.mp member
    obtain ⟨param, paramIn, ran⟩ := exists_of_forall₂ each pieceIn
    apply List.IsInfix.trans _ (infix_of_mem_split paramIn)
    rcases rewriteParam_cases ran with same | ⟨_, key, value, secret, split, _, same⟩
    · rw [same] at holds
      exact holds
    · rw [same] at holds
      rw [split]
      rcases infix_append_cons (by decide) holds with inKey | encoded
      · exact inKey.trans (List.prefix_append _ _).isInfix
      · exact absurd (encoded.subset (by decide)) (notMem_percentEncode (c := '\r') (by decide) (by decide) secret)

theorem crlf_of_rewriteUri {uri : List Char} {result : RewriteTargetResult}
    (ran : rewriteUri resolver uri = .ok result) (found : crlfText <:+: result.resolved) : crlfText <:+: uri := by
  unfold rewriteUri at ran
  split at ran
  · obtain ⟨rewritten, ranPath, ran⟩ := ok_of_bind ran
    cases ran
    exact crlf_of_resolves ⟨_, ranPath, rfl⟩ found
  · rename_i path query cut
    obtain ⟨rewritten, ranPath, ran⟩ := ok_of_bind ran
    obtain ⟨rewrittenQuery, ranQuery, ran⟩ := ok_of_bind ran
    cases ran
    rw [(splitOnce_eq_some cut).1]
    rcases infix_append_cons (by decide) found with inPath | inQuery
    · exact (crlf_of_resolves ⟨_, ranPath, rfl⟩ inPath).trans (List.prefix_append _ _).isInfix
    · exact (crlf_of_queryResolves ⟨_, ranQuery, rfl⟩ inQuery).trans ⟨path ++ ['?'], [], by simp⟩

theorem crlf_of_sentAs {sent : List Char} (sentAs : SentAs resolver line sent) (found : crlfText <:+: sent) :
    crlfText <:+: line := by
  cases sentAs with
  | kept => exact found
  | @rewritten method uri version result cut _ ran =>
    rw [(splitn_three_iff.mp cut).1]
    rcases infix_append_cons (by decide) found with inMethod | behind
    · exact inMethod.trans (List.prefix_append _ _).isInfix
    · apply List.IsInfix.trans _ (show uri ++ ' ' :: version <:+: _ from ⟨method ++ [' '], [], by simp⟩)
      rcases infix_append_cons (by decide) behind with inUri | inVersion
      · exact (crlf_of_rewriteUri ran inUri).trans (List.prefix_append _ _).isInfix
      · exact inVersion.trans ⟨uri ++ [' '], [], by simp⟩

end Breaks

/-! The three ways in which a header value is rewritten. -/

section Values

variable (base64 : Base64) (resolver : SecretResolver) (value : List Char)

def basicRewritten : Option (List Char) := do
  let text ← basicText base64 value
  if !hasPlaceholder text then none
  else
    let rewritten ← replacePlaceholders text resolver.byPlaceholder
    if rewritten = text then none else some rewritten

/-- The word before a placeholder, and the secret. -/
def prefixedSecret : Option (List Char × List Char) := do
  let splitAt ← (trim value).findIdx? isWhitespace
  let secret ← resolver.resolvePlaceholder (trim ((trim value).drop splitAt))
  pure ((trim value).take splitAt, secret)

theorem bind_basicToken : (basicToken value).bind (resolver.rewriteBasicAuthToken base64) =
    (basicRewritten base64 resolver value).map fun text => base64.encode (utf8Encode text) := by
  unfold basicRewritten basicText SecretResolver.rewriteBasicAuthToken basicToken
  cases (stripPrefix "Basic ".toList (trim value)).or (stripPrefix "basic ".toList (trim value)) with
  | none => rfl
  | some rest =>
    simp only [Option.map_some, Option.bind_some, trim_trim]
    cases base64.decode (trim rest) with
    | none => rfl
    | some bytes =>
      simp only [bind, Option.bind_some]
      cases utf8Decode bytes with
      | none => rfl
      | some text =>
        simp only [Option.bind_some]
        split
        · rfl
        · cases replacePlaceholders text resolver.byPlaceholder with
          | none => rfl
          | some rewritten =>
            simp only [Option.bind_some]
            split <;> rfl

theorem rewriteHeaderValue_eq : resolver.rewriteHeaderValue base64 value =
    (resolver.resolvePlaceholder (trim value)).or
      (((basicRewritten base64 resolver value).map fun text => "Basic ".toList ++ base64.encode (utf8Encode text)).or
        ((prefixedSecret resolver value).map fun parts => parts.1 ++ ' ' :: parts.2)) := by
  have token := bind_basicToken base64 resolver value
  unfold basicToken at token
  unfold SecretResolver.rewriteHeaderValue
  simp only [token]
  cases resolver.resolvePlaceholder (trim value) with
  | some secret => rfl
  | none =>
    cases basicRewritten base64 resolver value with
    | some rewritten => rfl
    | none =>
      unfold prefixedSecret
      cases (trim value).findIdx? isWhitespace with
      | none => rfl
      | some splitAt =>
        simp only [bind, Option.bind_some, Option.map_none, Option.none_or]
        cases resolver.resolvePlaceholder (trim ((trim value).drop splitAt)) <;> rfl

end Values

section Lines

variable {base64 : Base64} {resolver : SecretResolver} {line value rewritten : List Char}

theorem basicRewritten_eq_some (ran : basicRewritten base64 resolver value = some rewritten) : ∃ text,
    basicText base64 value = some text ∧ hasPlaceholder text = true ∧
      replacePlaceholders text resolver.byPlaceholder = some rewritten := by
  unfold basicRewritten at ran
  obtain ⟨text, textOf, ran⟩ := Option.bind_eq_some_iff.mp ran
  split at ran
  · cases ran
  · rename_i placeholder
    obtain ⟨replaced, same, ran⟩ := Option.bind_eq_some_iff.mp ran
    split at ran
    · cases ran
    · cases ran
      exact ⟨text, textOf, by simpa using placeholder, same⟩

theorem prefixedSecret_eq_some {parts : List Char × List Char} (ran : prefixedSecret resolver value = some parts) :
    ∃ candidate, trim value = parts.1 ++ candidate ∧ Plain parts.1 ∧
      resolver.resolvePlaceholder (trim candidate) = some parts.2 := by
  unfold prefixedSecret at ran
  obtain ⟨splitAt, found, ran⟩ := Option.bind_eq_some_iff.mp ran
  obtain ⟨secret, resolved, ran⟩ := Option.bind_eq_some_iff.mp ran
  cases ran
  refine ⟨(trim value).drop splitAt, (List.take_append_drop _ _).symm, ?_, resolved⟩
  intro c member
  obtain ⟨index, bound, same⟩ := List.mem_take_iff_getElem.mp member
  have earlier := (List.findIdx?_eq_some_iff_getElem.mp found).2.2 index (by omega)
  rw [same] at earlier
  simpa using earlier

theorem rewriteHeaderValue_cases (ran : resolver.rewriteHeaderValue base64 value = some rewritten) :
    resolver.resolvePlaceholder (trim value) = some rewritten ∨
      (∃ text, basicRewritten base64 resolver value = some text ∧
        rewritten = "Basic ".toList ++ base64.encode (utf8Encode text)) ∨
      ∃ parts, prefixedSecret resolver value = some parts ∧ rewritten = parts.1 ++ ' ' :: parts.2 := by
  rw [rewriteHeaderValue_eq, Option.or_eq_some_iff] at ran
  rcases ran with direct | ⟨_, ran⟩
  · exact .inl direct
  · rw [Option.or_eq_some_iff] at ran
    right
    rcases ran with basic | ⟨_, prefixed⟩
    · obtain ⟨text, found, same⟩ := Option.map_eq_some_iff.mp basic
      exact .inl ⟨text, found, same.symm⟩
    · obtain ⟨parts, found, same⟩ := Option.map_eq_some_iff.mp prefixed
      exact .inr ⟨parts, found, same.symm⟩

theorem cr_notMem_rewritten (standard : base64.Standard)
    (ran : resolver.rewriteHeaderValue base64 value = some rewritten) : '\r' ∉ rewritten := by
  rcases rewriteHeaderValue_cases ran with direct | ⟨text, _, rfl⟩ | ⟨parts, found, rfl⟩
  · exact (mem_of_resolved direct).2
  · rw [List.mem_append, not_or]
    refine ⟨by decide, fun member => ?_⟩
    have letter := standard.alphabet _ _ member
    revert letter
    decide
  · obtain ⟨candidate, _, word, resolved⟩ := prefixedSecret_eq_some found
    rw [List.mem_append, List.mem_cons, not_or, not_or]
    refine ⟨fun member => ?_, by decide, (mem_of_resolved resolved).2⟩
    have plain := word _ member
    revert plain
    decide

theorem placeholder_of_rewritten (ran : resolver.rewriteHeaderValue base64 value = some rewritten) :
    hasPlaceholder value = true ∨ hidesPlaceholder base64 value = true := by
  have within : ∀ part : List Char, part <:+: value → hasPlaceholder part = true → hasPlaceholder value = true := by
    intro part inside holds
    rw [hasPlaceholder_iff] at holds ⊢
    exact holds.trans inside
  rcases rewriteHeaderValue_cases ran with direct | ⟨text, found, _⟩ | ⟨parts, found, _⟩
  · exact .inl (within _ (infix_of_trim value) (hasPlaceholder_of_resolved direct))
  · obtain ⟨text, textOf, placeholder, _⟩ := basicRewritten_eq_some found
    right
    rw [hidesPlaceholder, textOf]
    exact placeholder
  · obtain ⟨candidate, cut, _, resolved⟩ := prefixedSecret_eq_some found
    left
    apply within (trim candidate) _ (hasPlaceholder_of_resolved resolved)
    apply (infix_of_trim candidate).trans
    apply List.IsInfix.trans _ (infix_of_trim value)
    rw [cut]
    exact (List.suffix_append _ _).isInfix

theorem basicToken_trim (value : List Char) : basicToken (trim value) = basicToken value := by
  unfold basicToken
  rw [trim_trim]

theorem basicText_trim (base64 : Base64) (value : List Char) :
    basicText base64 (trim value) = basicText base64 value := by
  unfold basicText
  rw [basicToken_trim]

theorem basicRewritten_trim (base64 : Base64) (resolver : SecretResolver) (value : List Char) :
    basicRewritten base64 resolver (trim value) = basicRewritten base64 resolver value := by
  unfold basicRewritten
  rw [basicText_trim]

theorem prefixedSecret_trim (resolver : SecretResolver) (value : List Char) :
    prefixedSecret resolver (trim value) = prefixedSecret resolver value := by
  unfold prefixedSecret
  rw [trim_trim]

/-- What becomes of one line: it stays one line, keeps its name, and is only changed for a placeholder. -/
structure LineKept (base64 : Base64) (line sent : List Char) : Prop where
  whole : ¬ crlfText <:+: sent
  name : headerName sent = headerName line
  filled : sent = [] ↔ line = []
  untouched : holdsPlaceholder base64 line = false → sent = line

theorem rewriteHeaderLine_kept (standard : base64.Standard) (whole : ¬ crlfText <:+: line) :
    LineKept base64 line (rewriteHeaderLine base64 resolver line) := by
  have same : LineKept base64 line line := ⟨whole, rfl, Iff.rfl, fun _ => rfl⟩
  unfold rewriteHeaderLine
  cases cut : splitOnce ':' line with
  | none => exact same
  | some parts =>
    obtain ⟨name, value⟩ := parts
    obtain ⟨lineIs, absent⟩ := splitOnce_eq_some cut
    simp only
    cases ran : resolver.rewriteHeaderValue base64 (trim value) with
    | none => exact same
    | some rewritten =>
      have sentIs : name ++ ": ".toList ++ rewritten = name ++ ':' :: ' ' :: rewritten := by simp
      simp only [sentIs]
      constructor
      · intro found
        apply whole
        rw [lineIs]
        rcases infix_append_cons (by decide) found with inName | behind
        · exact inName.trans (List.prefix_append _ _).isInfix
        · have member := behind.subset (show '\r' ∈ crlfText by decide)
          rcases List.mem_cons.mp member with space | inside
          · cases space
          · exact absurd inside (cr_notMem_rewritten standard ran)
      · unfold headerName
        rw [cut, splitOnce_append absent]
        rfl
      · rw [lineIs]
        simp
      · intro plain
        rw [holdsPlaceholder, Bool.or_eq_false_iff, lineHides, cut] at plain
        rcases placeholder_of_rewritten ran with inValue | hidden
        · rw [← Bool.not_eq_true, hasPlaceholder_iff, lineIs] at plain
          rw [hasPlaceholder_iff] at inValue
          apply absurd _ plain.1
          exact (inValue.trans (infix_of_trim value)).trans ⟨name ++ [':'], [], by simp⟩
        · rw [hidesPlaceholder, basicText_trim] at hidden
          exact absurd hidden (by simpa [hidesPlaceholder] using plain.2)

end Lines

/-! The whole block. -/

section Block

variable {base64 : Base64} {resolver : SecretResolver} {raw : List UInt8} {endsAt : Nat} {result : RewriteResult}

/-- Lines that are put together with a line break behind each are found again. -/
theorem block_of_lines {first : List Char} {lines : List (List Char)} (whole : ¬ crlfText <:+: first)
    (wholeLines : ∀ line ∈ lines, ¬ crlfText <:+: line) : ∃ body,
    first ++ (crlfText ++ ((lines.flatMap fun line => line ++ crlfText) ++ crlfText)) = body ++ (crlfText ++ crlfText) ∧
      splitCrlf body = first :: lines := by
  induction lines generalizing first with
  | nil => exact ⟨first, by simp, splitCrlf_whole whole⟩
  | cons line lines ih =>
    obtain ⟨body, same, cut⟩ := ih (wholeLines line (List.mem_cons_self ..))
      fun other member => wholeLines other (List.mem_cons_of_mem _ member)
    refine ⟨first ++ (crlfText ++ body), ?_, by rw [splitCrlf_append, splitCrlf_whole whole, cut]; rfl⟩
    rw [List.flatMap_cons]
    simp only [List.append_assoc] at same ⊢
    rw [same]

/-- The header block of a request: the request line and the headers behind it, then the blank line. -/
structure Block (bytes : List UInt8) (endsAt : Nat) (requestLine : List Char) (headers : List (List Char)) :
    Prop where
  ends : headerEnd bytes = some endsAt
  lines : splitCrlf (utf8DecodeLossy (bytes.take endsAt)) = requestLine :: (headers ++ [[], []])
  filled : [] ∉ headers

theorem block_of_open {body : List Char} {requestLine : List Char} {headers : List (List Char)}
    (cut : splitCrlf body = requestLine :: headers) (filled : [] ∉ headers) (behind : List UInt8) :
    Block (utf8Encode (body ++ (crlfText ++ crlfText)) ++ behind) (utf8Encode (body ++ (crlfText ++ crlfText))).length
      requestLine headers := by
  constructor
  · apply headerEnd_encode
    rwa [blank_iff, cut]
  · rw [List.take_left, utf8DecodeLossy_encode, splitCrlf_append, cut]
    rfl
  · exact filled

theorem exists_block (ended : headerEnd raw = some endsAt) : ∃ requestLine headers,
    Block raw endsAt requestLine headers := by
  obtain ⟨body, same, open_body⟩ := header_cut ended
  rw [blank_iff] at open_body
  obtain ⟨requestLine, headers, cut⟩ := List.exists_cons_of_ne_nil (splitCrlf_ne_nil body)
  rw [cut, List.tail_cons] at open_body
  refine ⟨requestLine, headers, ended, ?_, open_body⟩
  rw [same, splitCrlf_append, cut]
  rfl

theorem Block.rewriteLines {requestLine text : List Char} {headers : List (List Char)} {shown : Option (List Char)}
    (block : Block raw endsAt requestLine headers)
    (ran : rewriteLines base64 resolver (utf8DecodeLossy (raw.take endsAt)) = .ok (text, shown)) :
    ∃ sentLine, SentAs resolver requestLine sentLine ∧
      text = sentLine ++ (crlfText ++ ((headers.map (rewriteHeaderLine base64 resolver)).flatMap
        (fun line => line ++ crlfText) ++ crlfText)) := by
  have taken : (headers ++ [[], []]).takeWhile (!·.isEmpty) = headers := by
    rw [List.takeWhile_append_of_pos]
    · simp
    · intro line member
      cases line with
      | nil => exact absurd member block.filled
      | cons c line => rfl
  unfold Sandbox.rewriteLines at ran
  rw [block.lines, List.headD_cons, List.tail_cons, taken] at ran
  obtain ⟨rewrittenLine, ranLine, ran⟩ := ok_of_bind ran
  cases ran
  exact ⟨rewrittenLine.line, sentAs_of_rewritten ranLine, by rw [List.flatMap_map]⟩

theorem Block.whole {requestLine : List Char} {headers : List (List Char)} (block : Block raw endsAt requestLine headers) :
    ¬ crlfText <:+: requestLine ∧ ∀ line ∈ headers, ¬ crlfText <:+: line := by
  constructor
  · exact crlf_notInfix_line (by rw [block.lines]; exact List.mem_cons_self ..)
  · intro line member
    exact crlf_notInfix_line (by rw [block.lines]; exact List.mem_cons_of_mem _ (List.mem_append_left _ member))

/-- The block that is sent has the rewritten request line and headers for its lines. -/
theorem rewriteHttpHeaderBlock_block (standard : base64.Standard) {requestLine : List Char} {headers : List (List Char)}
    (block : Block raw endsAt requestLine headers)
    (ran : rewriteHttpHeaderBlock base64 raw (some resolver) = .ok result) : ∃ text sentLine,
    result.rewritten = utf8Encode text ++ raw.drop endsAt ∧ SentAs resolver requestLine sentLine ∧
      Block result.rewritten (utf8Encode text).length sentLine (headers.map (rewriteHeaderLine base64 resolver)) := by
  obtain ⟨text, shown, lines, _, rfl⟩ := (rewriteHttpHeaderBlock_ok block.ends).mp ran
  obtain ⟨sentLine, sentAs, same⟩ := block.rewriteLines lines
  obtain ⟨whole, wholeLines⟩ := block.whole
  have wholeSent : ¬ crlfText <:+: sentLine := fun found => whole (crlf_of_sentAs sentAs found)
  have wholeHeaders : ∀ line ∈ headers.map (rewriteHeaderLine base64 resolver), ¬ crlfText <:+: line := by
    intro line member
    obtain ⟨source, inside, rfl⟩ := List.mem_map.mp member
    exact (rewriteHeaderLine_kept standard (wholeLines source inside)).whole
  have filled : [] ∉ headers.map (rewriteHeaderLine base64 resolver) := by
    intro member
    obtain ⟨source, inside, empty⟩ := List.mem_map.mp member
    rw [(rewriteHeaderLine_kept standard (wholeLines source inside)).filled] at empty
    rw [empty] at inside
    exact block.filled inside
  obtain ⟨body, joined, cut⟩ := block_of_lines wholeSent wholeHeaders
  rw [← same] at joined
  refine ⟨text, sentLine, rfl, sentAs, ?_⟩
  rw [joined]
  exact block_of_open cut filled _

theorem untouched_of_sentAs {line sent : List Char} (sentAs : SentAs resolver line sent)
    (plain : holdsPlaceholder base64 line = false) : sent = line := by
  cases sentAs with
  | kept => rfl
  | @rewritten method uri version _ cut placeholder _ =>
    rw [holdsPlaceholder, Bool.or_eq_false_iff, ← Bool.not_eq_true, hasPlaceholder_iff] at plain
    rw [hasPlaceholder_iff] at placeholder
    apply absurd _ plain.1
    rw [(splitn_three_iff.mp cut).1]
    exact placeholder.trans ⟨method ++ [' '], ' ' :: version, by simp⟩

/-- Putting in the credentials keeps the lines of the block, their names, and every line without a placeholder. -/
theorem rewriteHttpHeaderBlock_structure (base64 : Base64) (standard : base64.Standard)
    (resolver : Option SecretResolver) (raw : List UInt8) (endsAt : Nat) (text : List Char) (result : RewriteResult)
    (ended : headerEnd raw = some endsAt) (decoded : utf8Decode (raw.take endsAt) = some text)
    (ran : rewriteHttpHeaderBlock base64 raw resolver = .ok result) :
    ∃ sent, SameStructure base64 (splitCrlf text) (raw.drop endsAt) result.rewritten sent := by
  have bytes := utf8Decode_eq_some decoded
  cases resolver with
  | none =>
    cases ran
    refine ⟨text, ?_, by rw [bytes, List.take_append_drop], rfl, rfl, List.forall₂_same.mpr fun _ _ _ => rfl⟩
    obtain ⟨body, same, open_body⟩ := header_cut ended
    rw [← bytes, utf8DecodeLossy_encode] at same
    rw [same] at bytes ⊢
    have ends := headerEnd_encode open_body (raw.drop endsAt)
    rwa [bytes, List.take_append_drop, ← bytes] at ends
  | some resolver =>
    obtain ⟨requestLine, headers, block⟩ := exists_block ended
    obtain ⟨sent, sentLine, same, sentAs, sentBlock⟩ := rewriteHttpHeaderBlock_block standard block ran
    have lines : splitCrlf text = requestLine :: (headers ++ [[], []]) := by
      rw [← block.lines, ← bytes, utf8DecodeLossy_encode]
    have sentLines : splitCrlf sent = sentLine :: (headers.map (rewriteHeaderLine base64 resolver) ++ [[], []]) := by
      rw [← sentBlock.lines, same, List.take_left, utf8DecodeLossy_encode]
    have kept : ∀ line ∈ headers, LineKept base64 line (rewriteHeaderLine base64 resolver line) :=
      fun line member => rewriteHeaderLine_kept standard (block.whole.2 line member)
    refine ⟨sent, sentBlock.ends, same, ?_, ?_, ?_⟩
    · rw [lines, sentLines]
      simp
    · rw [lines, sentLines, List.tail_cons, List.tail_cons, List.map_append, List.map_append, List.map_map]
      congr 1
      exact List.map_congr_left fun line member => (kept line member).name
    · rw [lines, sentLines]
      apply List.Forall₂.cons (untouched_of_sentAs sentAs)
      apply List.rel_append
      · rw [List.forall₂_map_right_iff, List.forall₂_same]
        exact fun line member => (kept line member).untouched
      · exact List.forall₂_same.mpr fun _ _ _ => rfl

end Block

section Example

def loginHeader (token : List Char) : List Char :=
  "GET / HTTP/1.1\r\nAccept: text/html\r\nAuthorization: basic ".toList ++ token ++ "\r\n\r\n".toList

/-- The token of `u:openshell:resolve:env:KEY`. -/
def loginToken : List Char := "dTpvcGVuc2hlbGw6cmVzb2x2ZTplbnY6S0VZ".toList

def loginHeaderSent : List Char :=
  "GET / HTTP/1.1\r\nAccept: text/html\r\nAuthorization: Basic dTph\r\n\r\n".toList

/-- A request that is a header block alone, and small enough to be scanned whole. -/
theorem rewriteHttpHeaderBlock_of_lines {base64 : Base64} {resolver : SecretResolver} {header sent : List Char}
    {shown : Option (List Char)} (ends : headerEnd (utf8Encode header) = some (utf8Encode header).length)
    (lines : rewriteLines base64 resolver header = .ok (sent, shown))
    (short : (utf8Encode sent).length ≤ (utf8Encode header).length + 256)
    (unseen : keepsPlaceholder (utf8Encode sent) = false) :
    rewriteHttpHeaderBlock base64 (utf8Encode header) (some resolver) = .ok ⟨utf8Encode sent, shown⟩ := by
  apply (rewriteHttpHeaderBlock_ok ends).mpr
  refine ⟨sent, shown, ?_, ?_, by rw [List.drop_length, List.append_nil]⟩
  · rw [List.take_length, utf8DecodeLossy_encode, lines]
  · rw [List.drop_length, List.append_nil, List.take_of_length_le short, unseen]

theorem loginHeader_ends : headerEnd (utf8Encode (loginHeader loginToken)) =
    some (utf8Encode (loginHeader loginToken)).length := by decide +kernel

theorem loginHeader_rewritten : rewriteHttpHeaderBlock standardBase64 (utf8Encode (loginHeader loginToken))
    (some (keyResolver "a".toList)) = .ok ⟨utf8Encode loginHeaderSent, none⟩ := by
  apply rewriteHttpHeaderBlock_of_lines loginHeader_ends
  · decide
  · decide
  · rw [keepsPlaceholder, utf8DecodeLossy_encode]
    decide

theorem loginHeader_structure : standardBase64.Standard ∧
    ∃ sent, SameStructure standardBase64 (splitCrlf (loginHeader loginToken)) [] (utf8Encode loginHeaderSent) sent := by
  have kept := rewriteHttpHeaderBlock_structure standardBase64 standardBase64_standard (some (keyResolver "a".toList))
    (utf8Encode (loginHeader loginToken)) _ (loginHeader loginToken) _ loginHeader_ends
    (by rw [List.take_length, utf8Decode_encode]) loginHeader_rewritten
  rw [List.drop_length] at kept
  exact ⟨standardBase64_standard, kept⟩

end Example

end OpenShell.Sandbox
