import OpenShell.Sandbox.Padding

namespace OpenShell.Sandbox

open Text Results

/-! The text that a segment is meant to become, and what the path and the query are sent as. -/

/-- A stretch of text, or a placeholder: the prefix and the longest run of key characters behind it. -/
inductive Piece where
  | literal (text : List Char)
  | placeholder (key : List Char)
deriving DecidableEq

def Piece.source : Piece → List Char
  | .literal text => text
  | .placeholder key => placeholderForEnvKey key

/-- The text that takes the place of the piece. -/
def Piece.filled (secretOf : List Char → List Char) : Piece → List Char
  | .literal text => text
  | .placeholder key => secretOf key

/-- The pieces of a text. The prefix with no key behind it is a stretch of text. -/
def scanFor : Nat → List Char → List Piece
  | 0, text => [.literal text]
  | fuel + 1, text =>
    match position placeholderPrefix text with
    | none => [.literal text]
    | some start =>
      let behind := text.drop (start + placeholderPrefix.length)
      let key := behind.takeWhile isEnvKeyChar
      if key.isEmpty then .literal (text.take start ++ placeholderPrefix) :: scanFor fuel behind
      else .literal (text.take start) :: .placeholder key :: scanFor fuel (behind.drop key.length)

def scan (text : List Char) : List Piece := scanFor (text.length + 1) text

def filled (secretOf : List Char → List Char) (pieces : List Piece) : List Char := pieces.flatMap (·.filled secretOf)

def SecretResolver.secretOf (resolver : SecretResolver) (key : List Char) : List Char :=
  (resolver.resolvePlaceholder (placeholderForEnvKey key)).getD []

section Scan

variable {resolver : SecretResolver}

/-- The pieces put together again are the text. -/
theorem source_scanFor (fuel : Nat) (text : List Char) : (scanFor fuel text).flatMap Piece.source = text := by
  induction fuel generalizing text with
  | zero => simp [scanFor, Piece.source]
  | succ fuel ih =>
    rw [scanFor]
    split
    · simp [Piece.source]
    · rename_i start found
      obtain ⟨literal, rest, cut, length, taken, dropped⟩ := position_cut found
      obtain ⟨behind, cutRest, droppedKey, _⟩ := takeWhile_cut isEnvKeyChar rest
      simp only [taken, dropped, droppedKey]
      split
      · rw [List.flatMap_cons, ih, Piece.source, cut, List.append_assoc]
      · rw [List.flatMap_cons, List.flatMap_cons, ih, Piece.source, Piece.source, placeholderForEnvKey,
          List.append_assoc, ← cutRest, cut]

/-- A segment is rewritten to its pieces, each placeholder filled with its own secret. -/
theorem filled_of_rewritten {fuel : Nat} {segment resolved redacted : List Char}
    (ran : rewritePathSegmentFor resolver fuel segment = .ok (resolved, redacted)) :
    resolved = filled resolver.secretOf (scanFor fuel segment) ∧
      ∀ key, .placeholder key ∈ scanFor fuel segment → ∃ secret,
        resolver.resolvePlaceholder (placeholderForEnvKey key) = some secret ∧
          validateCredentialForPath secret = .ok () := by
  unfold filled
  induction fuel generalizing segment resolved redacted with
  | zero =>
    cases ran
    simp [scanFor, Piece.filled]
  | succ fuel ih =>
    rw [scanFor]
    unfold rewritePathSegmentFor at ran
    cases found : position placeholderPrefix segment with
    | none =>
      simp only [found] at ran
      cases ran
      simp [Piece.filled]
    | some start =>
      simp only [found] at ran ⊢
      split at ran
      · rename_i unnamed
        obtain ⟨⟨later, shown⟩, ranLater, ran⟩ := ok_of_bind ran
        cases ran
        obtain ⟨same, known⟩ := ih ranLater
        rw [if_pos unnamed]
        refine ⟨by rw [List.flatMap_cons, ← same, Piece.filled], fun key member => known key ?_⟩
        simpa using member
      · rename_i named
        rw [if_neg named]
        split at ran
        · cases ran
        · rename_i secret resolvedKey
          split at ran
          · cases ran
          · rename_i valid
            obtain ⟨⟨later, shown⟩, ranLater, ran⟩ := ok_of_bind ran
            cases ran
            obtain ⟨same, known⟩ := ih ranLater
            constructor
            · rw [List.flatMap_cons, List.flatMap_cons, ← same, Piece.filled, Piece.filled, SecretResolver.secretOf,
                placeholderForEnvKey, resolvedKey, Option.getD_some, List.append_assoc]
            · intro key member
              rcases List.mem_cons.mp member with literal | member
              · cases literal
              · rcases List.mem_cons.mp member with here | later
                · cases here
                  exact ⟨secret, resolvedKey, valid⟩
                · exact known key later

end Scan

/-! The encoding of a segment. -/

def isPchar (c : Char) : Bool := c.isAlphanum || "-._~!$&'()*+,;=:@".toList.contains c

/-- Only the characters of a path segment, with a percent sign only before two hexadecimal digits. -/
def isPcharText : List Char → Bool
  | [] => true
  | '%' :: high :: low :: text => (toDigit 16 high).isSome && (toDigit 16 low).isSome && isPcharText text
  | c :: text => isPchar c && isPcharText text

section Encoding

variable {stays : Char → Bool}

set_option maxRecDepth 4000 in
theorem digits_read {high low : Nat} (highSmall : high < 16) (lowSmall : low < 16) :
    hexByte (asciiByte (upperHexDigit high)) (asciiByte (upperHexDigit low)) = some (UInt8.ofNat (high * 16 + low)) := by
  have read : ∀ high low : Fin 16, hexByte (asciiByte (upperHexDigit high)) (asciiByte (upperHexDigit low)) =
      some (UInt8.ofNat (high * 16 + low)) := by decide
  exact read ⟨high, highSmall⟩ ⟨low, lowSmall⟩

theorem digit_ascii {digit : Nat} (small : digit < 16) :
    (upperHexDigit digit).toNat < 128 ∧ (toDigit 16 (upperHexDigit digit)).isSome = true := by
  have ascii : ∀ digit : Fin 16, (upperHexDigit digit).toNat < 128 ∧ (toDigit 16 (upperHexDigit digit)).isSome = true := by
    decide
  exact ascii ⟨digit, small⟩

/-- One byte is written as it is, or as a percent sign with its two digits. -/
theorem utf8Encode_encoded (ascii : ∀ c, stays c = true → c.toNat < 128 ∧ c ≠ '%') (byte : UInt8) :
    let written := utf8Encode (if stays (Char.ofNat byte.toNat) then [Char.ofNat byte.toNat]
      else ['%', upperHexDigit (byte.toNat / 16), upperHexDigit (byte.toNat % 16)])
    (written = [byte] ∧ byte ≠ 0x25 ∧ stays (Char.ofNat byte.toNat) = true) ∨
      written = [0x25, asciiByte (upperHexDigit (byte.toNat / 16)), asciiByte (upperHexDigit (byte.toNat % 16))] := by
  have bound := byte.toNat_lt
  dsimp only
  split
  · rename_i stayed
    obtain ⟨small, other⟩ := ascii _ stayed
    have number : (Char.ofNat byte.toNat).toNat = byte.toNat := by
      rw [Char.ofNat, dif_pos (Or.inl (by omega))]
      rfl
    have low : byte < 0x80 := by
      rw [UInt8.lt_iff_toNat_lt, ← number]
      exact small
    have notPercent : byte ≠ 0x25 := by
      rintro rfl
      exact other rfl
    rw [utf8Encode_cons, encode_asciiChar low]
    exact .inl ⟨rfl, notPercent, stayed⟩
  · have high := digit_ascii (show byte.toNat / 16 < 16 by omega)
    have low := digit_ascii (show byte.toNat % 16 < 16 by omega)
    rw [utf8Encode_ascii]
    · exact .inr rfl
    · intro c member
      simp only [List.mem_cons, List.not_mem_nil, or_false] at member
      rcases member with rfl | rfl | rfl
      · decide
      · exact high.1
      · exact low.1

theorem digits_whole (byte : UInt8) : UInt8.ofNat (byte.toNat / 16 * 16 + byte.toNat % 16) = byte := by
  rw [Nat.div_add_mod']
  exact UInt8.ofNat_toNat

/-- Decoding takes back what the encoding writes for one byte. -/
theorem percentDecodeBytes_encoded (ascii : ∀ c, stays c = true → c.toNat < 128 ∧ c ≠ '%') (byte : UInt8)
    (rest : List UInt8) :
    percentDecodeBytes (utf8Encode (if stays (Char.ofNat byte.toNat) then [Char.ofNat byte.toNat]
      else ['%', upperHexDigit (byte.toNat / 16), upperHexDigit (byte.toNat % 16)]) ++ rest) =
      byte :: percentDecodeBytes rest := by
  have bound := byte.toNat_lt
  rcases utf8Encode_encoded ascii byte with ⟨written, notPercent, _⟩ | written
  · rw [written]
    exact percentDecodeBytes_other notPercent rest
  · rw [written, List.cons_append, List.cons_append, List.cons_append, List.nil_append, percentDecodeBytes,
      digits_read (by omega) (by omega), digits_whole]

theorem percentDecode_encode (ascii : ∀ c, stays c = true → c.toNat < 128 ∧ c ≠ '%') (text : List Char) :
    percentDecode (percentEncode stays text) = text := by
  have bytes : ∀ bytes : List UInt8, percentDecodeBytes (utf8Encode (bytes.flatMap fun byte =>
      if stays (Char.ofNat byte.toNat) then [Char.ofNat byte.toNat]
      else ['%', upperHexDigit (byte.toNat / 16), upperHexDigit (byte.toNat % 16)])) = bytes := by
    intro bytes
    induction bytes with
    | nil => rfl
    | cons byte bytes ih => rw [List.flatMap_cons, utf8Encode_append, percentDecodeBytes_encoded ascii, ih]
  unfold percentDecode percentEncode
  rw [bytes, utf8DecodeLossy_encode]

theorem isPcharText_cons {c : Char} (other : c ≠ '%') (text : List Char) :
    isPcharText (c :: text) = (isPchar c && isPcharText text) := by
  rw [isPcharText]
  intro high low rest same
  exact absurd same other

theorem isPcharText_encode (pchar : ∀ c, stays c = true → isPchar c = true) (text : List Char) :
    isPcharText (percentEncode stays text) = true := by
  unfold percentEncode
  induction utf8Encode text with
  | nil => rfl
  | cons byte bytes ih =>
    have bound := byte.toNat_lt
    rw [List.flatMap_cons]
    split
    · rename_i stayed
      have here := pchar _ stayed
      have other : Char.ofNat byte.toNat ≠ '%' := by
        intro same
        rw [same] at here
        revert here
        decide
      rw [List.singleton_append, isPcharText_cons other, here, ih]
      rfl
    · have high := digit_ascii (show byte.toNat / 16 < 16 by omega)
      have low := digit_ascii (show byte.toNat % 16 < 16 by omega)
      rw [List.cons_append, List.cons_append, List.cons_append, List.nil_append, isPcharText, high.2, low.2, ih]
      rfl

theorem isPchar_ascii {c : Char} (pchar : isPchar c = true) : c.toNat < 128 ∧ c ≠ '%' := by
  rw [isPchar, Bool.or_eq_true] at pchar
  rcases pchar with alphanum | listed
  · have range := alphanum_range alphanum
    have percent : '%'.toNat = 37 := rfl
    constructor
    · omega
    · rintro rfl
      omega
  · have ascii : ("-._~!$&'()*+,;=:@".toList.all fun c => c.toNat < 128 && c ≠ '%') = true := by decide
    have here := List.all_eq_true.mp ascii c (by simpa using listed)
    simpa using here

theorem isPchar_segment (c : Char) (stays : (isUnreserved c || isSubDelim c) = true) : isPchar c = true := by
  simp only [isUnreserved, Bool.or_eq_true, decide_eq_true_eq] at stays
  rw [isPchar, Bool.or_eq_true]
  rcases stays with ((((alphanum | rfl) | rfl) | rfl) | rfl) | delimiter
  · exact .inl alphanum
  · exact .inr (by decide)
  · exact .inr (by decide)
  · exact .inr (by decide)
  · exact .inr (by decide)
  · right
    have listed : ("!$&'()*+,;=:@".toList.all fun c => "-._~!$&'()*+,;=:@".toList.contains c) = true := by decide
    exact List.all_eq_true.mp listed c (by simpa [isSubDelim] using delimiter)

theorem isPchar_unreserved (c : Char) (stays : isUnreserved c = true) : isPchar c = true :=
  isPchar_segment c (by rw [stays]; rfl)

theorem percentDecode_segment (text : List Char) : percentDecode (percentEncodePathSegment text) = text :=
  percentDecode_encode (fun c stays => isPchar_ascii (isPchar_segment c stays)) text

theorem percentDecode_query (text : List Char) : percentDecode (percentEncodeQuery text) = text :=
  percentDecode_encode (fun c stays => isPchar_ascii (isPchar_unreserved c stays)) text

end Encoding

/-! Segments and parameters. -/

/-- What one segment is sent as: its pieces with their secrets, in the characters of a segment, or as it is. -/
def SegmentSent (resolver : SecretResolver) (segment sent : List Char) : Prop :=
  if hasPlaceholder (percentDecode segment) then
    isPcharText sent = true ∧
      percentDecode sent = filled resolver.secretOf (scan (percentDecode segment)) ∧
      ∀ key, .placeholder key ∈ scan (percentDecode segment) → ∃ secret,
        (placeholderForEnvKey key, secret) ∈ resolver.byPlaceholder ∧ resolver.secretOf key = secret
  else sent = segment

/-- What one parameter is sent as: as it is, or with the secret for a value that is a placeholder. -/
def ParamSent (resolver : SecretResolver) (param sent : List Char) : Prop :=
  sent = param ∨ ∃ key value envKey secret sentValue, param = key ++ '=' :: value ∧ '=' ∉ key ∧
    percentDecode value = placeholderForEnvKey envKey ∧
    (placeholderForEnvKey envKey, secret) ∈ resolver.byPlaceholder ∧
    sent = key ++ '=' :: sentValue ∧ percentDecode sentValue = secret

section Sent

variable {resolver : SecretResolver} {piece : RewrittenPiece}

theorem segmentSent_of_rewritten {segment : List Char} (ran : rewriteSegment resolver segment = .ok piece) :
    SegmentSent resolver segment piece.resolved := by
  unfold rewriteSegment at ran
  unfold SegmentSent
  cases placeholder : hasPlaceholder (percentDecode segment) with
  | false =>
    simp only [placeholder, Bool.not_false, if_true] at ran
    cases ran
    rfl
  | true =>
    simp only [placeholder, Bool.not_true, Bool.false_eq_true, if_false] at ran
    obtain ⟨⟨resolved, redacted⟩, rewritten, ran⟩ := ok_of_bind ran
    cases ran
    obtain ⟨same, known⟩ := filled_of_rewritten rewritten
    simp only [if_true]
    refine ⟨isPcharText_encode isPchar_segment resolved, by rw [percentDecode_segment]; exact same, ?_⟩
    intro key member
    obtain ⟨secret, resolvedKey, _⟩ := known key member
    exact ⟨secret, (mem_of_resolved resolvedKey).1, by rw [SecretResolver.secretOf, resolvedKey]; rfl⟩

theorem paramSent_of_rewritten {param : List Char} (ran : rewriteParam resolver param = .ok piece) :
    ParamSent resolver param piece.resolved := by
  unfold rewriteParam at ran
  split at ran
  · cases ran
    exact .inl rfl
  · rename_i key value found
    obtain ⟨same, absent⟩ := splitOnce_eq_some found
    simp only at ran
    split at ran
    · rename_i secret resolved
      cases ran
      have member := (mem_of_resolved resolved).1
      obtain ⟨envKey, placeholder⟩ := resolver.placeholders _ member
      right
      refine ⟨key, value, envKey, secret, _, same, absent, placeholder, ?_, rfl, percentDecode_query secret⟩
      rw [← placeholder]
      exact member
    · split at ran
      · cases ran
      · cases ran
        exact .inl rfl

theorem rewriteParam_whole {param : List Char} (whole : '&' ∉ param) (ran : rewriteParam resolver param = .ok piece) :
    '&' ∉ piece.resolved := by
  rcases rewriteParam_cases ran with same | ⟨_, key, value, secret, split, _, same⟩
  · rw [same]
    exact whole
  · rw [split] at whole
    rw [same, List.mem_append, List.mem_cons, not_or, not_or]
    rw [List.mem_append, not_or] at whole
    exact ⟨whole.1, by decide, notMem_percentEncode (by decide) (by decide) secret⟩

theorem segmentsSent {path sent : List Char} {pieces : List RewrittenPiece}
    (each : List.Forall₂ (fun segment piece => rewriteSegment resolver segment = .ok piece) (split '/' path) pieces)
    (same : sent = join ['/'] (pieces.map (·.resolved))) :
    List.Forall₂ (SegmentSent resolver) (split '/' path) (split '/' sent) := by
  have cut : split '/' sent = pieces.map (·.resolved) := by
    rw [same]
    apply split_pieces each split_ne_nil
    intro segment segmentIn piece ran
    exact (rewriteSegment_spec (notMem_of_mem_split segmentIn) ran).1
  rw [cut, List.forall₂_map_right_iff]
  exact each.imp fun _ _ => segmentSent_of_rewritten

theorem paramsSent {query sent : List Char} (resolves : QueryResolves resolver query sent) :
    List.Forall₂ (ParamSent resolver) (split '&' query) (split '&' sent) := by
  rcases queryResolves_cases resolves with same | ⟨pieces, each, same⟩
  · rw [same]
    exact List.forall₂_same.mpr fun _ _ => .inl rfl
  · have cut : split '&' sent = pieces.map (·.resolved) := by
      rw [same]
      apply split_pieces each split_ne_nil
      intro param paramIn piece ran
      exact rewriteParam_whole (notMem_of_mem_split paramIn) ran
    rw [cut, List.forall₂_map_right_iff]
    exact each.imp fun _ _ => paramSent_of_rewritten

/-- The segments of a path and the parameters of a query are sent one by one: what is no placeholder as it is,
    and every placeholder as its own secret. -/
theorem rewriteUri_exact (resolver : SecretResolver) :
    (∀ path sent shown, rewriteUriPath resolver path = .ok (some (sent, shown)) →
      (split '/' sent).length = (split '/' path).length ∧
        List.Forall₂ (SegmentSent resolver) (split '/' path) (split '/' sent)) ∧
    ∀ query rewritten, rewriteUriQueryParams resolver query = .ok rewritten →
      (split '&' (rewritten.getD (query, query)).1).length = (split '&' query).length ∧
        List.Forall₂ (ParamSent resolver) (split '&' query) (split '&' (rewritten.getD (query, query)).1) := by
  constructor
  · intro path sent shown ran
    rcases resolves_cases ⟨_, ran, rfl⟩ with ⟨plain, _⟩ | ⟨_, pieces, each, same⟩
    · unfold rewriteUriPath at ran
      simp only [plain, Bool.not_false, if_true] at ran
      cases ran
    · have sentEach := segmentsSent each same
      exact ⟨sentEach.length_eq.symm, sentEach⟩
  · intro query rewritten ran
    have sentEach := paramsSent ⟨_, ran, rfl⟩
    exact ⟨sentEach.length_eq.symm, sentEach⟩

end Sent

section Example

theorem keyTarget_exact : rewriteUriPath (keyResolver "b c".toList) keyTarget =
      .ok (some ("/botb%20c/send".toList, "/bot[CREDENTIAL]/send".toList)) ∧
    List.Forall₂ (SegmentSent (keyResolver "b c".toList)) (split '/' keyTarget) (split '/' "/botb%20c/send".toList) := by
  have ran : rewriteUriPath (keyResolver "b c".toList) keyTarget =
      .ok (some ("/botb%20c/send".toList, "/bot[CREDENTIAL]/send".toList)) := by rfl
  exact ⟨ran, ((rewriteUri_exact (keyResolver "b c".toList)).1 _ _ _ ran).2⟩

end Example

end OpenShell.Sandbox
