import OpenShell.Sandbox.HeaderSecrets
import OpenShell.Sandbox.LineSecrets

namespace OpenShell.Sandbox

open Text Results

/-! Which placeholders the scan reaches: the secrets push what stands behind them. -/

section Definitions

variable (base64 : Base64) (resolver : SecretResolver) (sentLine : List Char) (headers : List (List Char))

/-- A placeholder is left in the request line with its credentials, also in percent-decoded form, or stays in what is
sent for a header line. -/
def Left : Prop :=
  hasPlaceholder sentLine = true ∨ hasPlaceholder (percentDecode sentLine) = true ∨
    ∃ header ∈ headers, ∃ bytes, StaysBy base64 resolver header bytes

/-- One is left within these first bytes. A header line begins behind the request line and the header lines before it,
each with what is put in it and its line break. -/
def LeftBy (bytes : Nat) : Prop :=
  PlaceholderBy sentLine bytes ∨
    hasPlaceholder (percentDecode (utf8DecodeLossy ((utf8Encode sentLine).take bytes))) = true ∨
    ∃ before header after sizes, headers = before ++ header :: after ∧
      List.Forall₂ (Takes base64 resolver) before sizes ∧
      StaysBy base64 resolver header (bytes - ((utf8Encode sentLine).length + 2 + (sizes.map (· + 2)).sum))

/-- The block that is sent. -/
def sentText : List Char :=
  sentLine ++ (crlfText ++ (withBreaks (headers.map (rewriteHeaderLine base64 resolver)) ++ crlfText))

end Definitions

/-! The first bytes of the block. -/

section Bytes

variable {base64 : Base64} {resolver : SecretResolver} {text first rest sentLine : List Char}
  {headers : List (List Char)} {bytes : Nat}

theorem placeholderBy_take :
    hasPlaceholder (utf8DecodeLossy ((utf8Encode text).take bytes)) = true ↔ PlaceholderBy text bytes := by
  have ascii : Ascii placeholderPrefix := by decide
  have filled : placeholderPrefix ≠ [] := by decide
  rw [hasPlaceholder_iff, ← (sameAscii_lossy _).infix_iff ascii filled, infix_take_encode ascii filled]
  rfl

theorem not_placeholderBy_short (short : text.length < 22) : ¬ PlaceholderBy text bytes := by
  rintro ⟨before, after, same, _⟩
  have total := congrArg List.length same
  rw [List.length_append, List.length_append, show placeholderPrefix.length = 22 from rfl] at total
  omega

theorem placeholderBy_break : PlaceholderBy (first ++ (crlfText ++ rest)) bytes ↔
    PlaceholderBy first bytes ∨ PlaceholderBy rest (bytes - ((utf8Encode first).length + 2)) := by
  have cut : first ++ (crlfText ++ rest) = first ++ '\r' :: ([] ++ '\n' :: rest) := rfl
  have one : (utf8Encode (first ++ ['\r'])).length = (utf8Encode first).length + 1 := by
    rw [utf8Encode_append, List.length_append]
    rfl
  have nothing : ∀ bytes, ¬ PlaceholderBy [] bytes := fun _ => not_placeholderBy_short (by decide)
  rw [cut, placeholderBy_cons (by decide), placeholderBy_cons (by decide), or_iff_right (nothing _), one, Nat.sub_sub]
  rfl

/-- A placeholder in lines with their line breaks stands in one of them, behind those before it. -/
theorem placeholderBy_lines {lines : List (List Char)} : PlaceholderBy (withBreaks lines ++ crlfText) bytes ↔
    ∃ before line after, lines = before ++ line :: after ∧
      PlaceholderBy line (bytes - (before.map fun line => (utf8Encode line).length + 2).sum) := by
  induction lines generalizing bytes with
  | nil =>
    apply iff_of_false (not_placeholderBy_short (by decide))
    rintro ⟨before, line, after, same, _⟩
    simp at same
  | cons line lines ih =>
    have step : withBreaks (line :: lines) ++ crlfText = line ++ (crlfText ++ (withBreaks lines ++ crlfText)) := by
      simp only [withBreaks, List.flatMap_cons, List.append_assoc]
    rw [step, placeholderBy_break, ih]
    constructor
    · rintro (here | ⟨before, other, after, rfl, found⟩)
      · exact ⟨[], line, lines, rfl, by simpa using here⟩
      · refine ⟨line :: before, other, after, rfl, ?_⟩
        rwa [List.map_cons, List.sum_cons, ← Nat.sub_sub]
    · rintro ⟨before, other, after, same, found⟩
      cases before with
      | nil =>
        rw [List.nil_append, List.cons.injEq] at same
        rw [same.1]
        exact .inl (by simpa using found)
      | cons first before =>
        rw [List.cons_append, List.cons.injEq] at same
        obtain ⟨rfl, rfl⟩ := same
        rw [List.map_cons, List.sum_cons, ← Nat.sub_sub] at found
        exact .inr ⟨before, other, after, rfl, found⟩

theorem takes_forall {lines : List (List Char)} {sizes : List Nat} : List.Forall₂ (Takes base64 resolver) lines sizes ↔
    sizes = lines.map fun line => (utf8Encode (rewriteHeaderLine base64 resolver line)).length := by
  constructor
  · intro each
    induction each with
    | nil => rfl
    | cons here _ ih => rw [List.map_cons, takes_iff.mp here, ih]
  · rintro rfl
    rw [List.forall₂_map_right_iff, List.forall₂_same]
    exact fun line _ => takes_iff.mpr rfl

/-- The first line of the first bytes, up to a carriage return at their end. -/
theorem decoded_take (whole : ¬ crlfText <:+: sentLine) :
    hasPlaceholder (percentDecode (firstLine (utf8DecodeLossy
        ((utf8Encode (sentLine ++ (crlfText ++ rest))).take bytes)))) =
      hasPlaceholder (percentDecode (utf8DecodeLossy ((utf8Encode sentLine).take bytes))) := by
  rw [utf8Encode_append, utf8Encode_append, utf8Encode_crlfText, List.take_append]
  rcases Nat.lt_or_ge (utf8Encode sentLine).length bytes with longer | within
  · rw [List.take_of_length_le (by omega), utf8DecodeLossy_append, utf8DecodeLossy_encode]
    by_cases one : bytes - (utf8Encode sentLine).length = 1
    · have cut : (crlf ++ utf8Encode rest).take 1 = utf8Encode ['\r'] := rfl
      have wholeToo : ¬ crlfText <:+: sentLine ++ ['\r'] := by
        rw [List.infix_concat_iff, not_or]
        refine ⟨?_, whole⟩
        rintro ⟨lead, same⟩
        have last := congrArg List.getLast? same
        simp [crlfText] at last
      have decoded := @percentDecode_padded [] ['\r'] (by simp [White]) (by simp [White]; decide) sentLine
      have same := @hasPlaceholder_padded [] ['\r'] (by simp [White]) (by simp [White]; decide) (percentDecode sentLine)
      rw [List.nil_append, List.nil_append] at decoded
      rw [List.nil_append] at same
      rw [one, cut, utf8DecodeLossy_encode, firstLine, splitCrlf_whole wholeToo, List.headD_cons, decoded, same]
    · have cut : (crlf ++ utf8Encode rest).take (bytes - (utf8Encode sentLine).length) =
          utf8Encode crlfText ++ (utf8Encode rest).take (bytes - (utf8Encode sentLine).length - 2) := by
        rw [List.take_append, List.take_of_length_le (show crlf.length ≤ _ by
          rw [show crlf.length = 2 from rfl]; omega), utf8Encode_crlfText]
        rfl
      rw [cut, utf8DecodeLossy_append, firstLine_whole whole]
  · rw [show bytes - (utf8Encode sentLine).length = 0 by omega, List.take_zero, List.append_nil]
    have wholeToo : ¬ crlfText <:+: utf8DecodeLossy ((utf8Encode sentLine).take bytes) := by
      intro found
      apply whole
      have ascii : Ascii crlfText := by decide
      have inBytes := ((sameAscii_lossy _).infix_iff ascii (by decide)).mpr found
      exact ((sameAscii_encode _).infix_iff ascii (by decide)).mp (inBytes.trans (List.take_prefix _ _).isInfix)
    rw [firstLine, splitCrlf_whole wholeToo, List.headD_cons]

theorem keepsPlaceholder_take (whole : ¬ crlfText <:+: sentLine) :
    keepsPlaceholder ((utf8Encode (sentText base64 resolver sentLine headers)).take bytes) = true ↔
      LeftBy base64 resolver sentLine headers bytes := by
  unfold keepsPlaceholder LeftBy sentText
  rw [Bool.or_eq_true, decoded_take whole, placeholderBy_take, placeholderBy_break, placeholderBy_lines, or_assoc]
  apply or_congr_right
  rw [or_comm]
  apply or_congr_right
  simp only [takes_forall, staysBy_iff]
  constructor
  · rintro ⟨before, line, after, same, found⟩
    obtain ⟨first, others, rfl, rfl, cut⟩ := List.map_eq_append_iff.mp same
    obtain ⟨header, later, rfl, rfl, rfl⟩ := List.map_eq_cons_iff.mp cut
    refine ⟨first, header, later, _, rfl, rfl, ?_⟩
    rw [List.map_map] at found ⊢
    rwa [← Nat.sub_sub]
  · rintro ⟨before, header, after, _, rfl, rfl, found⟩
    refine ⟨before.map (rewriteHeaderLine base64 resolver), _, _, List.map_append, ?_⟩
    rw [List.map_map] at found ⊢
    rwa [← Nat.sub_sub] at found

theorem keepsPlaceholder_whole (whole : ¬ crlfText <:+: sentLine) :
    keepsPlaceholder (utf8Encode (sentText base64 resolver sentLine headers)) = true ↔
      Left base64 resolver sentLine headers := by
  have blank : hasPlaceholder [] = false := by decide
  have text : sentText base64 resolver sentLine headers =
      withBreaks (sentLine :: headers.map (rewriteHeaderLine base64 resolver)) ++ (crlfText ++ []) := by
    simp only [sentText, withBreaks, List.flatMap_cons, List.append_assoc, List.append_nil]
  unfold keepsPlaceholder Left
  rw [utf8DecodeLossy_encode, Bool.or_eq_true, sentText, firstLine_whole whole, ← sentText, text,
    hasPlaceholder_withBreaks, blank, or_iff_left Bool.false_ne_true, List.exists_mem_cons_iff, or_assoc]
  apply or_congr_right
  rw [or_comm]
  apply or_congr_right
  simp only [stays_iff, List.mem_map, exists_exists_and_eq_and]

theorem length_sentText {sizes : List Nat} (each : List.Forall₂ (Takes base64 resolver) headers sizes) :
    (utf8Encode (sentText base64 resolver sentLine headers)).length =
      (utf8Encode sentLine).length + (sizes.map (· + 2)).sum + 4 := by
  have lines : (utf8Encode (withBreaks (headers.map (rewriteHeaderLine base64 resolver)))).length =
      (sizes.map (· + 2)).sum := by
    rw [takes_forall.mp each]
    clear each
    induction headers with
    | nil => rfl
    | cons header headers ih =>
      have step : withBreaks ((header :: headers).map (rewriteHeaderLine base64 resolver)) =
          rewriteHeaderLine base64 resolver header ++
            (crlfText ++ withBreaks (headers.map (rewriteHeaderLine base64 resolver))) := by
        simp only [withBreaks, List.map_cons, List.flatMap_cons, List.append_assoc]
      rw [step, utf8Encode_append, utf8Encode_append, List.length_append, List.length_append, ih,
        show (utf8Encode crlfText).length = 2 from rfl, List.map_cons, List.map_cons, List.sum_cons, Nat.add_assoc]
  rw [sentText, utf8Encode_append, utf8Encode_append, utf8Encode_append, List.length_append, List.length_append,
    List.length_append, lines, show (utf8Encode crlfText).length = 2 from rfl]
  omega

end Bytes

section Block

variable {base64 : Base64} {resolver : SecretResolver} {raw : List UInt8} {endsAt : Nat} {requestLine : List Char}
  {headers : List (List Char)}

theorem Block.lines_iff (block : Block raw endsAt requestLine headers) {text : List Char} :
    (∃ shown, Sandbox.rewriteLines base64 resolver (utf8DecodeLossy (raw.take endsAt)) = .ok (text, shown)) ↔
      ∃ sentLine, LineWith resolver requestLine sentLine ∧ text = sentText base64 resolver sentLine headers := by
  have taken : (headers ++ [[], []]).takeWhile (!·.isEmpty) = headers := by
    rw [List.takeWhile_append_of_pos]
    · simp
    · intro line member
      cases line with
      | nil => exact absurd member block.filled
      | cons c line => rfl
  have broken : (headers.flatMap fun line => rewriteHeaderLine base64 resolver line ++ crlfText) =
      withBreaks (headers.map (rewriteHeaderLine base64 resolver)) := by
    rw [withBreaks, List.flatMap_map]
  unfold Sandbox.rewriteLines sentText
  rw [block.lines, List.headD_cons, List.tail_cons, taken, broken]
  simp only [lineWith_iff]
  constructor
  · rintro ⟨shown, ran⟩
    obtain ⟨result, ranLine, ran⟩ := ok_of_bind ran
    cases ran
    exact ⟨_, ⟨result, ranLine, rfl⟩, rfl⟩
  · rintro ⟨_, ⟨result, ranLine, rfl⟩, rfl⟩
    rw [ranLine]
    exact ⟨_, rfl⟩

/-- The injection fails closed exactly if, whenever the credentials of the request line can be put in and a placeholder
    is left, one is left within 256 bytes more than the block had. -/
theorem failClosed_iff (base64 : Base64) (resolver : SecretResolver) (raw : List UInt8) (endsAt : Nat)
    (requestLine : List Char) (headers : List (List Char)) (block : Block raw endsAt requestLine headers) :
    (∀ result, rewriteHttpHeaderBlock base64 raw (some resolver) = .ok result → FailClosed raw endsAt result) ↔
      ∀ sentLine, LineWith resolver requestLine sentLine → Left base64 resolver sentLine headers →
        LeftBy base64 resolver sentLine headers (endsAt + 256) := by
  have whole : ∀ sentLine, LineWith resolver requestLine sentLine → ¬ crlfText <:+: sentLine := by
    intro sentLine put found
    obtain ⟨result, ran, rfl⟩ := lineWith_iff.mp put
    exact block.whole.1 (crlf_of_sentAs (sentAs_of_rewritten ran) found)
  rw [failClosed_window block.ends]
  constructor
  · intro reached sentLine put left
    obtain ⟨shown, lines⟩ := (@Block.lines_iff base64 resolver _ _ _ _ block _).mpr ⟨sentLine, put, rfl⟩
    have kept := (keepsPlaceholder_whole (whole sentLine put)).mpr left
    exact (keepsPlaceholder_take (whole sentLine put)).mp (reached _ shown lines kept)
  · intro reached text shown lines kept
    obtain ⟨sentLine, put, rfl⟩ := (@Block.lines_iff base64 resolver _ _ _ _ block _).mp ⟨shown, lines⟩
    have left := (keepsPlaceholder_whole (whole sentLine put)).mp kept
    exact (keepsPlaceholder_take (whole sentLine put)).mpr (reached sentLine put left)

/-- In particular if the secrets make the block at most 256 bytes longer. -/
theorem failClosed_of_short (block : Block raw endsAt requestLine headers)
    (short : ∀ sentLine sizes, LineWith resolver requestLine sentLine →
      List.Forall₂ (Takes base64 resolver) headers sizes →
      (utf8Encode sentLine).length + (sizes.map (· + 2)).sum + 4 ≤ endsAt + 256) {result : RewriteResult}
    (ran : rewriteHttpHeaderBlock base64 raw (some resolver) = .ok result) : FailClosed raw endsAt result := by
  refine (failClosed_window block.ends).mpr ?_ result ran
  intro text shown lines kept
  obtain ⟨sentLine, put, rfl⟩ := (@Block.lines_iff base64 resolver _ _ _ _ block _).mp ⟨shown, lines⟩
  have each := (@takes_forall base64 resolver headers _).mpr rfl
  rwa [List.take_of_length_le ((length_sentText each).trans_le (short sentLine _ put each))]

end Block

section Example

def keyHeader : List Char :=
  "GET / HTTP/1.1\r\nA: openshell:resolve:env:KEY\r\nB: openshell:resolve:env:OLD\r\n\r\n".toList

def longKey : List Char := List.replicate 300 'a'

def keyHeaderRewritten (secret : List Char) : List Char :=
  "GET / HTTP/1.1\r\nA: ".toList ++ secret ++ "\r\nB: openshell:resolve:env:OLD\r\n\r\n".toList

theorem keyHeader_ends : headerEnd (utf8Encode keyHeader) = some 78 := by decide

theorem keyHeader_lines : utf8DecodeLossy ((utf8Encode keyHeader).take 78) = keyHeader := by
  rw [List.take_of_length_le (by decide), utf8DecodeLossy_encode]

def knownLine : List Char := "A: openshell:resolve:env:KEY".toList

def oldLine : List Char := "B: openshell:resolve:env:OLD".toList

theorem keyHeader_block : Block (utf8Encode keyHeader) 78 "GET / HTTP/1.1".toList [knownLine, oldLine] where
  ends := keyHeader_ends
  lines := by
    rw [keyHeader_lines]
    decide
  filled := by decide

theorem keyHeader_refused : Block (utf8Encode keyHeader) 78 "GET / HTTP/1.1".toList [knownLine, oldLine] ∧ ∀ result,
    rewriteHttpHeaderBlock noBase64 (utf8Encode keyHeader) (some (keyResolver ['a'])) = .ok result →
      FailClosed (utf8Encode keyHeader) 78 result := by
  refine ⟨keyHeader_block, (failClosed_iff noBase64 (keyResolver ['a']) _ _ _ _ keyHeader_block).mpr ?_⟩
  intro sentLine put _
  have plain : rewriteRequestLine (keyResolver ['a']) "GET / HTTP/1.1".toList =
      .ok ⟨"GET / HTTP/1.1".toList, none⟩ := rfl
  obtain ⟨result, ran, rfl⟩ := lineWith_iff.mp put
  cases plain.symm.trans ran
  right
  right
  have short : rewriteHeaderLine noBase64 (keyResolver ['a']) knownLine = "A: a".toList := by decide
  have kept : rewriteHeaderLine noBase64 (keyResolver ['a']) oldLine = oldLine := by decide
  refine ⟨[knownLine], oldLine, [], [4], rfl, .cons (takes_iff.mpr ?_) .nil, staysBy_iff.mpr ?_⟩
  · rw [short]
    decide
  · rw [kept]
    exact ⟨"B: ".toList, "OLD".toList, by decide, by decide⟩

/-- The long secret pushes the unknown placeholder behind the scanned bytes. -/
theorem keyHeader_leaks : ∃ result,
    rewriteHttpHeaderBlock noBase64 (utf8Encode keyHeader) (some (keyResolver longKey)) = .ok result ∧
      ¬ FailClosed (utf8Encode keyHeader) 78 result := by
  have rewritten : rewriteLines noBase64 (keyResolver longKey) keyHeader =
      .ok (keyHeaderRewritten longKey, none) := by decide +kernel
  have window : (utf8Encode (keyHeaderRewritten longKey) ++ (utf8Encode keyHeader).drop 78).take (78 + 256) =
      utf8Encode ((keyHeaderRewritten longKey).take 334) := by decide +kernel
  have unseen : keepsPlaceholder (utf8Encode ((keyHeaderRewritten longKey).take 334)) = false := by
    rw [keepsPlaceholder, utf8DecodeLossy_encode]
    decide +kernel
  have left : hasPlaceholder (keyHeaderRewritten longKey) = true := by decide +kernel
  refine ⟨⟨utf8Encode (keyHeaderRewritten longKey) ++ (utf8Encode keyHeader).drop 78, none⟩, ?_, ?_⟩
  · apply (rewriteHttpHeaderBlock_ok keyHeader_ends).mpr
    exact ⟨keyHeaderRewritten longKey, none, by rw [keyHeader_lines, rewritten], by rw [window, unseen], rfl⟩
  · rw [failClosed_iff_keeps, keepsPlaceholder, utf8DecodeLossy_encode, left]
    simp

end Example

end OpenShell.Sandbox
