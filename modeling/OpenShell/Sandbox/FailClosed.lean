import OpenShell.Sandbox.Redaction

namespace OpenShell.Sandbox

open Text Results

/-! The scan for what is left of a placeholder, and what it does not reach. -/

section Block

variable (base64 : Base64) (resolver : SecretResolver)

/-- The lines of a header block as `rewriteRequestLine` and `rewriteHeaderLine` leave them. -/
def rewriteLines (text : List Char) : Except UnresolvedPlaceholderError (List Char × Option (List Char)) := do
  let rewrittenLine ← rewriteRequestLine resolver ((splitCrlf text).headD [])
  let headers := ((splitCrlf text).tail.takeWhile (!·.isEmpty)).flatMap fun line =>
    rewriteHeaderLine base64 resolver line ++ crlfText
  pure (rewrittenLine.line ++ (crlfText ++ (headers ++ crlfText)), rewrittenLine.redactedTarget)

/-- The scan: a placeholder in the block, or in the decoded request line. -/
def keepsPlaceholder (block : List UInt8) : Bool :=
  hasPlaceholder (utf8DecodeLossy block) || hasPlaceholder (percentDecode (firstLine (utf8DecodeLossy block)))

/-- What is returned of the header block, without the bytes behind it. -/
def returnedHeader (raw : List UInt8) (endsAt : Nat) (result : RewriteResult) : List UInt8 :=
  result.rewritten.take (result.rewritten.length - (raw.drop endsAt).length)

def FailClosed (raw : List UInt8) (endsAt : Nat) (result : RewriteResult) : Prop :=
  hasPlaceholder (utf8DecodeLossy (returnedHeader raw endsAt result)) = false ∧
    hasPlaceholder (percentDecode (firstLine (utf8DecodeLossy (returnedHeader raw endsAt result)))) = false

variable {base64 resolver} {raw : List UInt8} {endsAt : Nat} {result : RewriteResult}

theorem utf8Encode_flatMap {α : Type} (parts : α → List Char) (items : List α) :
    utf8Encode (items.flatMap parts) = items.flatMap fun item => utf8Encode (parts item) := by
  unfold utf8Encode
  exact List.flatMap_assoc

theorem rewriteHttpHeaderBlock_eq (ended : headerEnd raw = some endsAt) :
    rewriteHttpHeaderBlock base64 raw (some resolver) = (do
      let (text, shown) ← rewriteLines base64 resolver (utf8DecodeLossy (raw.take endsAt))
      let output := utf8Encode text ++ raw.drop endsAt
      let outputHeader := utf8DecodeLossy (output.take (endsAt + 256))
      if hasPlaceholder outputHeader then .error ⟨.header⟩
      else if hasPlaceholder (percentDecode (firstLine outputHeader)) then .error ⟨.path⟩
      else pure ⟨output, shown⟩) := by
  unfold rewriteHttpHeaderBlock rewriteLines
  simp only [ended]
  cases pieces : splitCrlf (utf8DecodeLossy (raw.take endsAt)) with
  | nil => exact absurd pieces (splitCrlf_ne_nil _)
  | cons requestLine lines =>
    simp only [List.headD_cons, List.tail_cons]
    cases ran : rewriteRequestLine resolver requestLine with
    | error problem => rfl
    | ok rewrittenLine =>
      have bytes : ∀ headers : List Char, utf8Encode (rewrittenLine.line ++ (crlfText ++ (headers ++ crlfText))) =
          utf8Encode rewrittenLine.line ++ crlf ++ utf8Encode headers ++ crlf := by
        intro headers
        simp only [utf8Encode_append, utf8Encode_crlfText, List.append_assoc]
      simp only [bind, Except.bind, pure, Except.pure, bytes, utf8Encode_flatMap, utf8Encode_append,
        utf8Encode_crlfText]
      rfl

theorem rewriteHttpHeaderBlock_ok (ended : headerEnd raw = some endsAt) :
    rewriteHttpHeaderBlock base64 raw (some resolver) = .ok result ↔
      ∃ text shown, rewriteLines base64 resolver (utf8DecodeLossy (raw.take endsAt)) = .ok (text, shown) ∧
        keepsPlaceholder ((utf8Encode text ++ raw.drop endsAt).take (endsAt + 256)) = false ∧
        result = ⟨utf8Encode text ++ raw.drop endsAt, shown⟩ := by
  rw [rewriteHttpHeaderBlock_eq ended]
  unfold keepsPlaceholder
  constructor
  · intro ran
    obtain ⟨⟨text, shown⟩, lines, ran⟩ := ok_of_bind ran
    simp only at ran
    split at ran
    · cases ran
    · rename_i clean
      split at ran
      · cases ran
      · rename_i cleanLine
        cases ran
        exact ⟨text, shown, lines, by simp [clean, cleanLine], rfl⟩
  · rintro ⟨text, shown, lines, clean, same⟩
    rw [Bool.or_eq_false_iff] at clean
    rw [lines, same]
    simp only [bind, Except.bind, clean.1, clean.2, Bool.false_eq_true, if_false]
    rfl

/-! A block that ends inside the scanned bytes is scanned whole. -/

theorem keepsPlaceholder_append (text : List Char) (bytes : List UInt8)
    (kept : keepsPlaceholder (utf8Encode (text ++ crlfText)) = true) :
    keepsPlaceholder (utf8Encode (text ++ crlfText) ++ bytes) = true := by
  unfold keepsPlaceholder at kept ⊢
  rw [utf8DecodeLossy_encode] at kept
  rw [utf8DecodeLossy_append, List.append_assoc, firstLine_append]
  rw [Bool.or_eq_true] at kept ⊢
  rcases kept with inside | decoded
  · left
    rw [hasPlaceholder_iff] at inside ⊢
    rw [← List.append_assoc]
    exact inside.trans (List.prefix_append _ _).isInfix
  · right
    exact decoded

theorem returnedHeader_eq (text : List Char) (shown : Option (List Char)) :
    returnedHeader raw endsAt ⟨utf8Encode text ++ raw.drop endsAt, shown⟩ = utf8Encode text := by
  unfold returnedHeader
  rw [List.length_append, Nat.add_sub_cancel, List.take_left]

theorem failClosed_iff_keeps (text : List Char) (shown : Option (List Char)) :
    FailClosed raw endsAt ⟨utf8Encode text ++ raw.drop endsAt, shown⟩ ↔
      keepsPlaceholder (utf8Encode text) = false := by
  unfold FailClosed keepsPlaceholder
  rw [returnedHeader_eq, Bool.or_eq_false_iff]

theorem rewriteLines_ends {header text : List Char} {shown : Option (List Char)}
    (ran : rewriteLines base64 resolver header = .ok (text, shown)) : ∃ lines, text = lines ++ crlfText := by
  unfold rewriteLines at ran
  obtain ⟨rewrittenLine, _, ran⟩ := ok_of_bind ran
  cases ran
  exact ⟨rewrittenLine.line ++ (crlfText ++ _), by simp only [List.append_assoc]; rfl⟩

/-- The injection fails closed if the scanned bytes hold a placeholder whenever the rewritten lines do. -/
theorem failClosed_window (ended : headerEnd raw = some endsAt) :
    (∀ result, rewriteHttpHeaderBlock base64 raw (some resolver) = .ok result → FailClosed raw endsAt result) ↔
      ∀ text shown, rewriteLines base64 resolver (utf8DecodeLossy (raw.take endsAt)) = .ok (text, shown) →
        keepsPlaceholder (utf8Encode text) = true →
        keepsPlaceholder ((utf8Encode text).take (endsAt + 256)) = true := by
  constructor
  · intro closed text shown lines kept
    by_contra unseen
    have long : endsAt + 256 < (utf8Encode text).length := by
      by_contra short
      rw [List.take_of_length_le (by omega)] at unseen
      exact unseen kept
    have window : (utf8Encode text ++ raw.drop endsAt).take (endsAt + 256) = (utf8Encode text).take (endsAt + 256) :=
      List.take_append_of_le_length (by omega)
    have ran := (rewriteHttpHeaderBlock_ok ended).mpr ⟨text, shown, lines, by rw [window]; simpa using unseen, rfl⟩
    have clean := (failClosed_iff_keeps text shown).mp (closed _ ran)
    rw [kept] at clean
    cases clean
  · intro reached result ran
    obtain ⟨text, shown, lines, unseen, rfl⟩ := (rewriteHttpHeaderBlock_ok ended).mp ran
    rw [failClosed_iff_keeps]
    by_contra kept
    rw [Bool.not_eq_false] at kept
    by_cases long : endsAt + 256 < (utf8Encode text).length
    · rw [List.take_append_of_le_length (by omega), reached text shown lines kept] at unseen
      cases unseen
    · obtain ⟨body, same⟩ := rewriteLines_ends lines
      rw [List.take_append, List.take_of_length_le (by omega)] at unseen
      rw [same] at unseen kept
      rw [keepsPlaceholder_append body _ kept] at unseen
      cases unseen

end Block

end OpenShell.Sandbox
