import OpenShell.Sandbox.RequestLine
import OpenShell.Sandbox.Substitution

namespace OpenShell.Sandbox

open Text Results

/-! What is put in a request line, told from the line and the secrets. -/

section Definitions

variable (resolver : SecretResolver)

/-- The key is known, and its secret may stand in a path. -/
def PathKey (key : List Char) : Prop := ∃ secret,
  resolver.resolvePlaceholder (placeholderForEnvKey key) = some secret ∧ validateCredentialForPath secret = .ok ()

/-- A segment of the path, with the secrets in it if it is decoded to a text with placeholders. -/
inductive SegmentWith : List Char → List Char → Prop
  | plain {segment : List Char} (plain : hasPlaceholder (percentDecode segment) = false) : SegmentWith segment segment
  | put {segment : List Char} (named : hasPlaceholder (percentDecode segment) = true)
      (known : ∀ key, .placeholder key ∈ scan (percentDecode segment) → PathKey resolver key) :
      SegmentWith segment (percentEncodePathSegment (filled resolver.secretOf (scan (percentDecode segment))))

/-- A parameter of the query, with the secret in it if its value is decoded to a placeholder. -/
inductive ParamWith : List Char → List Char → Prop
  | bare {param : List Char} (absent : '=' ∉ param) : ParamWith param param
  | plain {key value : List Char} (absent : '=' ∉ key) (plain : hasPlaceholder (percentDecode value) = false) :
      ParamWith (key ++ '=' :: value) (key ++ '=' :: value)
  | put {key value secret : List Char} (absent : '=' ∉ key)
      (known : resolver.resolvePlaceholder (percentDecode value) = some secret) :
      ParamWith (key ++ '=' :: value) (key ++ '=' :: percentEncodeQuery secret)

/-- A text of which the parts are sent one by one if a placeholder is spelled out in it. -/
def PartsWith (each : List Char → List Char → Prop) (separator : Char) (text sent : List Char) : Prop :=
  if hasPlaceholder text then ∃ parts, List.Forall₂ each (split separator text) parts ∧ sent = join [separator] parts
  else sent = text

inductive UriWith : List Char → List Char → Prop
  | path {path sent : List Char} (absent : '?' ∉ path) (segments : PartsWith (SegmentWith resolver) '/' path sent) :
      UriWith path sent
  | query {path query sent sentQuery : List Char} (absent : '?' ∉ path)
      (segments : PartsWith (SegmentWith resolver) '/' path sent)
      (params : PartsWith (ParamWith resolver) '&' query sentQuery) :
      UriWith (path ++ '?' :: query) (sent ++ '?' :: sentQuery)

/-- The request line with its credentials. There is none where one of them is unknown or not allowed. -/
inductive LineWith (line : List Char) : List Char → Prop
  | plain (plain : ∀ method uri version, splitn ' ' 3 line = [method, uri, version] → hasPlaceholder uri = false) :
      LineWith line line
  | put {method uri version sent : List Char} (cut : splitn ' ' 3 line = [method, uri, version])
      (named : hasPlaceholder uri = true) (put : UriWith resolver uri sent) :
      LineWith line (method ++ ' ' :: (sent ++ ' ' :: version))

end Definitions

section Parts

variable {resolver : SecretResolver} {segment param sent : List Char}

theorem rewritePathSegmentFor_filled {fuel : Nat} {segment : List Char}
    (known : ∀ key, .placeholder key ∈ scanFor fuel segment → PathKey resolver key) :
    ∃ redacted, rewritePathSegmentFor resolver fuel segment =
      .ok (filled resolver.secretOf (scanFor fuel segment), redacted) := by
  induction fuel generalizing segment with
  | zero => exact ⟨segment, by simp [rewritePathSegmentFor, scanFor, filled, Piece.filled]⟩
  | succ fuel ih =>
    rw [scanFor] at known ⊢
    unfold rewritePathSegmentFor filled
    cases found : position placeholderPrefix segment with
    | none => exact ⟨segment, by simp [Piece.filled]⟩
    | some start =>
      simp only [found] at known ⊢
      split at known
      · rename_i unnamed
        obtain ⟨redacted, ran⟩ := ih fun key member => known key (List.mem_cons_of_mem _ member)
        rw [if_pos unnamed, if_pos unnamed, ran, List.flatMap_cons]
        exact ⟨_, rfl⟩
      · rename_i named
        obtain ⟨secret, resolvedKey, valid⟩ := known _ (List.mem_cons_of_mem _ List.mem_cons_self)
        obtain ⟨redacted, ran⟩ := ih fun key member =>
          known key (List.mem_cons_of_mem _ (List.mem_cons_of_mem _ member))
        have secretIs := resolvedKey
        rw [placeholderForEnvKey] at secretIs
        rw [if_neg named, if_neg named, secretIs, List.flatMap_cons, List.flatMap_cons, Piece.filled, Piece.filled,
          SecretResolver.secretOf, resolvedKey]
        simp only [valid, ran, Option.getD_some]
        refine ⟨segment.take start ++ credentialMark ++ redacted, ?_⟩
        simp only [bind, Except.bind, pure, Except.pure, List.append_assoc]
        rfl

theorem segmentWith_iff : SegmentWith resolver segment sent ↔
    ∃ piece, rewriteSegment resolver segment = .ok piece ∧ piece.resolved = sent := by
  unfold rewriteSegment
  constructor
  · intro put
    cases put with
    | plain plain => exact ⟨⟨segment, segment, false⟩, by simp only [plain]; rfl, rfl⟩
    | put named known =>
      obtain ⟨redacted, ran⟩ := rewritePathSegmentFor_filled known
      refine ⟨⟨_, redacted, true⟩, ?_, rfl⟩
      simp only [named, Bool.not_true, Bool.false_eq_true, if_false, rewritePathSegment, ran]
      rfl
  · rintro ⟨piece, ran, rfl⟩
    cases named : hasPlaceholder (percentDecode segment) with
    | false =>
      simp only [named, Bool.not_false, if_true] at ran
      cases ran
      exact .plain named
    | true =>
      simp only [named, Bool.not_true, Bool.false_eq_true, if_false] at ran
      obtain ⟨⟨resolved, redacted⟩, rewritten, ran⟩ := ok_of_bind ran
      cases ran
      obtain ⟨rfl, known⟩ := filled_of_rewritten rewritten
      exact .put named known

theorem paramWith_iff : ParamWith resolver param sent ↔
    ∃ piece, rewriteParam resolver param = .ok piece ∧ piece.resolved = sent := by
  unfold rewriteParam
  constructor
  · intro put
    cases put with
    | bare absent =>
      rw [splitOnce_of_notMem absent]
      exact ⟨_, rfl, rfl⟩
    | @plain key value absent plain =>
      have unknown : resolver.resolvePlaceholder (percentDecode value) = none := by
        cases resolved : resolver.resolvePlaceholder (percentDecode value) with
        | none => rfl
        | some secret =>
          rw [hasPlaceholder_of_resolved resolved] at plain
          cases plain
      rw [splitOnce_append absent]
      simp only [unknown, plain, Bool.false_eq_true, if_false]
      exact ⟨_, rfl, rfl⟩
    | @put key value secret absent known =>
      rw [splitOnce_append absent]
      simp only [known]
      exact ⟨_, rfl, rfl⟩
  · rintro ⟨piece, ran, rfl⟩
    cases cut : splitOnce '=' param with
    | none =>
      simp only [cut] at ran
      cases ran
      exact .bare (notMem_of_splitOnce cut)
    | some parts =>
      obtain ⟨key, value⟩ := parts
      obtain ⟨rfl, absent⟩ := splitOnce_eq_some cut
      simp only [cut] at ran
      cases known : resolver.resolvePlaceholder (percentDecode value) with
      | some secret =>
        simp only [known] at ran
        cases ran
        exact .put absent known
      | none =>
        simp only [known] at ran
        split at ran
        · cases ran
        · rename_i plain
          cases ran
          exact .plain absent (by simpa using plain)

/-- The texts that the parts are sent as are those of the rewritten pieces. -/
theorem pieces_iff {rewrite : List Char → Except UnresolvedPlaceholderError RewrittenPiece}
    {items parts : List (List Char)} :
    List.Forall₂ (fun item part => ∃ piece, rewrite item = .ok piece ∧ piece.resolved = part) items parts ↔
      ∃ pieces, List.Forall₂ (fun item piece => rewrite item = .ok piece) items pieces ∧
        parts = pieces.map (·.resolved) := by
  constructor
  · intro each
    induction each with
    | nil => exact ⟨[], .nil, rfl⟩
    | cons here _ ih =>
      obtain ⟨piece, ran, rfl⟩ := here
      obtain ⟨pieces, later, rfl⟩ := ih
      exact ⟨piece :: pieces, .cons ran later, rfl⟩
  · rintro ⟨pieces, each, rfl⟩
    rw [List.forall₂_map_right_iff]
    exact each.imp fun _ piece ran => ⟨piece, ran, rfl⟩

theorem partsWith_iff {rewrite : List Char → Except UnresolvedPlaceholderError RewrittenPiece} {separator : Char}
    {text : List Char}
    (kept : ∀ item piece, rewrite item = .ok piece → piece.rewritten = false → piece = ⟨item, item, false⟩) :
    PartsWith (fun item part => ∃ piece, rewrite item = .ok piece ∧ piece.resolved = part) separator text sent ↔
      ∃ rewritten, (if !hasPlaceholder text then pure none else do
          let pieces ← (split separator text).mapM rewrite
          pure (joinPieces [separator] pieces)) = Except.ok (ε := UnresolvedPlaceholderError) rewritten ∧
        sent = (rewritten.getD (text, text)).1 := by
  unfold PartsWith
  cases hasPlaceholder text with
  | false =>
    simp only [Bool.false_eq_true, if_false, Bool.not_false, if_true]
    constructor
    · intro same
      exact ⟨none, rfl, same⟩
    · rintro ⟨rewritten, ran, same⟩
      cases ran
      exact same
  | true =>
    simp only [if_true, Bool.not_true, Bool.false_eq_true, if_false, pieces_iff]
    have joined := fun {pieces : List RewrittenPiece} =>
      @joinPieces_getD rewrite separator (split separator text) pieces kept
    simp only [join_split] at joined
    constructor
    · rintro ⟨_, ⟨pieces, each, rfl⟩, rfl⟩
      refine ⟨joinPieces [separator] pieces, ?_, by rw [joined each]⟩
      rw [mapM_of_forall₂ each]
      rfl
    · rintro ⟨rewritten, ran, rfl⟩
      obtain ⟨pieces, mapped, ran⟩ := ok_of_bind ran
      cases ran
      have each := forall₂_of_mapM mapped
      exact ⟨_, ⟨pieces, each, rfl⟩, by rw [joined each]⟩

end Parts

section Line

variable {resolver : SecretResolver} {path query uri line sent : List Char}

theorem pathWith_iff : PartsWith (SegmentWith resolver) '/' path sent ↔ Resolves resolver path sent := by
  have parts := @partsWith_iff sent (rewriteSegment resolver) '/' path fun _ _ => rewriteSegment_untouched
  simp only [← segmentWith_iff] at parts
  exact parts

theorem queryWith_iff : PartsWith (ParamWith resolver) '&' query sent ↔ QueryResolves resolver query sent := by
  have parts := @partsWith_iff sent (rewriteParam resolver) '&' query fun _ _ => rewriteParam_untouched
  simp only [← paramWith_iff] at parts
  exact parts

theorem uriWith_iff : UriWith resolver uri sent ↔
    ∃ result, rewriteUri resolver uri = .ok result ∧ result.resolved = sent := by
  unfold rewriteUri
  constructor
  · intro put
    cases put with
    | path absent segments =>
      obtain ⟨rewritten, ran, rfl⟩ := pathWith_iff.mp segments
      rw [splitOnce_of_notMem absent]
      simp only [ran]
      exact ⟨_, rfl, rfl⟩
    | query absent segments params =>
      obtain ⟨rewritten, ran, rfl⟩ := pathWith_iff.mp segments
      obtain ⟨rewrittenQuery, ranQuery, rfl⟩ := queryWith_iff.mp params
      rw [splitOnce_append absent]
      simp only [ran, ranQuery]
      exact ⟨_, rfl, rfl⟩
  · rintro ⟨result, ran, rfl⟩
    cases cut : splitOnce '?' uri with
    | none =>
      simp only [cut] at ran
      obtain ⟨rewritten, ranPath, ran⟩ := ok_of_bind ran
      cases ran
      exact .path (notMem_of_splitOnce cut) (pathWith_iff.mpr ⟨_, ranPath, rfl⟩)
    | some parts =>
      obtain ⟨path, query⟩ := parts
      obtain ⟨rfl, absent⟩ := splitOnce_eq_some cut
      simp only [cut] at ran
      obtain ⟨rewritten, ranPath, ran⟩ := ok_of_bind ran
      obtain ⟨rewrittenQuery, ranQuery, ran⟩ := ok_of_bind ran
      cases ran
      exact .query absent (pathWith_iff.mpr ⟨_, ranPath, rfl⟩) (queryWith_iff.mpr ⟨_, ranQuery, rfl⟩)

/-- The request line is rewritten exactly if its credentials can be put in, and to the line with them. -/
theorem lineWith_iff : LineWith resolver line sent ↔
    ∃ result, rewriteRequestLine resolver line = .ok result ∧ result.line = sent := by
  unfold rewriteRequestLine
  constructor
  · intro put
    cases put with
    | plain plain =>
      split
      · rename_i method uri version cut
        rw [plain method uri version cut]
        exact ⟨_, rfl, rfl⟩
      · exact ⟨_, rfl, rfl⟩
    | @put method uri version sent cut named put =>
      obtain ⟨result, ran, rfl⟩ := uriWith_iff.mp put
      rw [cut]
      simp only [named, Bool.not_true, Bool.false_eq_true, if_false, ran]
      exact ⟨_, rfl, by simp⟩
  · rintro ⟨result, ran, rfl⟩
    split at ran
    · rename_i method uri version cut
      cases named : hasPlaceholder uri with
      | false =>
        simp only [named, Bool.not_false, if_true] at ran
        cases ran
        apply LineWith.plain
        intro _ _ _ cutToo
        cases cut.symm.trans cutToo
        exact named
      | true =>
        simp only [named, Bool.not_true, Bool.false_eq_true, if_false] at ran
        obtain ⟨target, ranUri, ran⟩ := ok_of_bind ran
        cases ran
        have put := LineWith.put cut named (uriWith_iff.mpr ⟨target, ranUri, rfl⟩)
        simpa using put
    · rename_i other
      cases ran
      apply LineWith.plain
      intro method uri version cut
      exact absurd cut (other method uri version)

end Line

end OpenShell.Sandbox
