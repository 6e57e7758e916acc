import OpenShell.Sandbox.Secrets

namespace OpenShell.Sandbox

open Text Results

/-! What is shown of a request target to the policy and in the logs does not depend on the secrets. -/

section Independence

variable (first second : SecretResolver)

theorem agree_rewritePathSegment (fuel : Nat) (segment : List Char) :
    Agree Prod.snd (rewritePathSegmentFor first fuel segment) (rewritePathSegmentFor second fuel segment) := by
  induction fuel generalizing segment with
  | zero => exact Agree.ok rfl
  | succ fuel ih =>
    unfold rewritePathSegmentFor
    split
    · exact Agree.ok rfl
    · rename_i start _
      extract_lets literal behind key
      split
      · apply Agree.bind (ih behind)
        intro one two same
        apply Agree.ok
        rw [same]
      · -- Both resolvers know the placeholder, or one of the runs fails here.
        split
        · exact Agree.error_left
        · split
          · exact Agree.error_left
          · split
            · exact Agree.error_right
            · split
              · exact Agree.error_right
              · apply Agree.bind (ih _)
                intro one two same
                apply Agree.ok
                rw [same]

def RewrittenPiece.shown (piece : RewrittenPiece) : List Char × Bool := (piece.redacted, piece.rewritten)

theorem joinPieces_shown (separator : List Char) {pieces others : List RewrittenPiece}
    (same : pieces.map RewrittenPiece.shown = others.map RewrittenPiece.shown) :
    (joinPieces separator pieces).map Prod.snd = (joinPieces separator others).map Prod.snd := by
  have redacted : pieces.map (·.redacted) = others.map (·.redacted) := by
    have shown := congrArg (List.map Prod.fst) same
    rwa [List.map_map, List.map_map] at shown
  have rewritten : pieces.any (·.rewritten) = others.any (·.rewritten) := by
    have shown := congrArg (List.any · Prod.snd) same
    rwa [List.any_map, List.any_map] at shown
  unfold joinPieces
  rw [redacted, rewritten]
  split <;> rfl

theorem agree_rewriteSegment (segment : List Char) :
    Agree RewrittenPiece.shown (rewriteSegment first segment) (rewriteSegment second segment) := by
  unfold rewriteSegment
  extract_lets decoded
  split
  · exact Agree.ok rfl
  · apply Agree.bind (agree_rewritePathSegment first second _ decoded)
    intro one two same
    apply Agree.ok
    simp only [RewrittenPiece.shown, same]

theorem agree_rewriteUriPath (path : List Char) :
    Agree (Option.map Prod.snd) (rewriteUriPath first path) (rewriteUriPath second path) := by
  unfold rewriteUriPath
  split
  · exact Agree.ok rfl
  · apply Agree.bind (Agree.mapM fun segment _ => agree_rewriteSegment first second segment)
    intro pieces others same
    exact Agree.ok (joinPieces_shown ['/'] same)

theorem validateResolvedSecret_ok {value secret : List Char} (valid : validateResolvedSecret value = .ok secret) :
    secret = value ∧ '\r' ∉ secret := by
  unfold validateResolvedSecret at valid
  split at valid
  · cases valid
  · rename_i clean
    cases valid
    refine ⟨rfl, fun member => clean ?_⟩
    rw [List.any_eq_true]
    exact ⟨'\r', member, by decide⟩

theorem mem_of_resolved {resolver : SecretResolver} {value secret : List Char}
    (resolved : resolver.resolvePlaceholder value = some secret) :
    (value, secret) ∈ resolver.byPlaceholder ∧ '\r' ∉ secret := by
  unfold SecretResolver.resolvePlaceholder at resolved
  obtain ⟨held, found, valid⟩ := Option.bind_eq_some_iff.mp resolved
  obtain ⟨before, after, split, _⟩ := List.lookup_eq_some_iff.mp found
  cases checked : validateResolvedSecret held with
  | error problem =>
    rw [checked] at valid
    cases valid
  | ok allowed =>
    rw [checked] at valid
    cases valid
    obtain ⟨same, clean⟩ := validateResolvedSecret_ok checked
    rw [split, same]
    exact ⟨by simp, by rwa [← same]⟩

theorem hasPlaceholder_of_resolved {resolver : SecretResolver} {value secret : List Char}
    (resolved : resolver.resolvePlaceholder value = some secret) : hasPlaceholder value = true := by
  obtain ⟨key, same⟩ := resolver.placeholders (value, secret) (mem_of_resolved resolved).1
  rw [hasPlaceholder_iff, show value = placeholderPrefix ++ key from same]
  exact (List.prefix_append _ _).isInfix

theorem agree_rewriteParam (param : List Char) :
    Agree RewrittenPiece.shown (rewriteParam first param) (rewriteParam second param) := by
  unfold rewriteParam
  split
  · exact Agree.ok rfl
  · rename_i key value _
    extract_lets decodedValue
    -- A value that one resolver knows is a placeholder, which the other knows too or else refuses.
    cases known : first.resolvePlaceholder decodedValue with
    | some secret =>
      have placeholder := hasPlaceholder_of_resolved known
      cases knownOther : second.resolvePlaceholder decodedValue with
      | some other => exact Agree.ok rfl
      | none =>
        simp only [placeholder, if_true]
        exact Agree.error_right
    | none =>
      cases placeholder : hasPlaceholder decodedValue with
      | true => exact Agree.error_left
      | false =>
        cases knownOther : second.resolvePlaceholder decodedValue with
        | some other =>
          rw [hasPlaceholder_of_resolved knownOther] at placeholder
          cases placeholder
        | none => exact Agree.ok rfl

theorem agree_rewriteUriQueryParams (query : List Char) :
    Agree (Option.map Prod.snd) (rewriteUriQueryParams first query) (rewriteUriQueryParams second query) := by
  unfold rewriteUriQueryParams
  split
  · exact Agree.ok rfl
  · apply Agree.bind (Agree.mapM fun param _ => agree_rewriteParam first second param)
    intro pieces others same
    exact Agree.ok (joinPieces_shown ['&'] same)

theorem getD_shown {one two : Option (List Char × List Char)} (same : one.map Prod.snd = two.map Prod.snd)
    (text : List Char) : (one.getD (text, text)).2 = (two.getD (text, text)).2 := by
  cases one <;> cases two <;> simp_all

theorem agree_rewriteUri (uri : List Char) :
    Agree (·.redacted) (rewriteUri first uri) (rewriteUri second uri) := by
  unfold rewriteUri
  split
  · apply Agree.bind (agree_rewriteUriPath first second uri)
    intro one two same
    exact Agree.ok (getD_shown same uri)
  · rename_i path query _
    apply Agree.bind (agree_rewriteUriPath first second path)
    intro path₁ path₂ samePath
    have shownPath := getD_shown samePath path
    simp only
    apply Agree.bind (agree_rewriteUriQueryParams first second query)
    intro query₁ query₂ sameQuery
    have shownQuery := getD_shown sameQuery query
    apply Agree.ok
    rw [shownPath, shownQuery]

theorem agree_rewriteTargetForEval (target : List Char) :
    Agree (·.redacted) (rewriteTargetForEval first target) (rewriteTargetForEval second target) := by
  unfold rewriteTargetForEval
  split
  · split
    · exact Agree.error_left
    · exact Agree.ok rfl
  · exact agree_rewriteUri first second target

theorem agree_rewriteRequestLine (line : List Char) :
    Agree (·.redactedTarget) (rewriteRequestLine first line) (rewriteRequestLine second line) := by
  unfold rewriteRequestLine
  split
  · rename_i method uri version _
    split
    · exact Agree.ok rfl
    · apply Agree.bind (agree_rewriteUri first second uri)
      intro one two same
      apply Agree.ok
      rw [same]
  · exact Agree.ok rfl

theorem agree_rewriteHttpHeaderBlock (base64 : Base64) (raw : List UInt8) :
    Agree (·.redactedTarget) (rewriteHttpHeaderBlock base64 raw (some first))
      (rewriteHttpHeaderBlock base64 raw (some second)) := by
  unfold rewriteHttpHeaderBlock
  cases headerEnd raw with
  | none => exact Agree.ok rfl
  | some headerEnd =>
    simp only
    cases splitCrlf (utf8DecodeLossy (raw.take headerEnd)) with
    | nil => exact Agree.ok rfl
    | cons requestLine lines =>
      apply Agree.bind (agree_rewriteRequestLine first second requestLine)
      intro one two same
      split
      · exact Agree.error_left
      · split
        · exact Agree.error_left
        · split
          · exact Agree.error_right
          · split
            · exact Agree.error_right
            · exact Agree.ok same

end Independence

/-- Whatever two resolvers hold, the targets shown for one request are the same where both succeed. -/
theorem redacted_independent (base64 : Base64) (first second : SecretResolver) :
    (∀ target one two, rewriteTargetForEval first target = .ok one →
        rewriteTargetForEval second target = .ok two → one.redacted = two.redacted) ∧
      ∀ raw one two, rewriteHttpHeaderBlock base64 raw (some first) = .ok one →
        rewriteHttpHeaderBlock base64 raw (some second) = .ok two → one.redactedTarget = two.redactedTarget :=
  ⟨agree_rewriteTargetForEval first second, agree_rewriteHttpHeaderBlock first second base64⟩

section Example

def keyResolver (secret : List Char) : SecretResolver where
  byPlaceholder := [(placeholderForEnvKey "KEY".toList, secret)]
  distinct := by simp
  placeholders := fun entry member => ⟨"KEY".toList, by rw [List.mem_singleton.mp member]⟩

def noBase64 : Base64 := ⟨fun _ => none, fun _ => []⟩

def keyTarget : List Char := "/bot".toList ++ placeholderForEnvKey "KEY".toList ++ "/send".toList

theorem keyTarget_redacted :
    ∃ one two, rewriteTargetForEval (keyResolver "a".toList) keyTarget = .ok one ∧
      rewriteTargetForEval (keyResolver "b c".toList) keyTarget = .ok two ∧ one.resolved = "/bota/send".toList ∧
      two.resolved = "/botb%20c/send".toList ∧ one.redacted = two.redacted :=
  ⟨⟨"/bota/send".toList, "/bot[CREDENTIAL]/send".toList⟩, ⟨"/botb%20c/send".toList, "/bot[CREDENTIAL]/send".toList⟩,
    by rfl, by rfl, rfl, rfl, (redacted_independent noBase64 (keyResolver "a".toList) (keyResolver "b c".toList)).1
      keyTarget _ _ (by rfl) (by rfl)⟩

end Example

end OpenShell.Sandbox
