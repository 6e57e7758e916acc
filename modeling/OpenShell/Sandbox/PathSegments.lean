import OpenShell.Sandbox.Redaction

namespace OpenShell.Sandbox

open Text Results

/-! The path that the policy is shown, beside the path that is sent. -/

/-- The text with the mark in place of every placeholder. The bare prefix, with no key behind it, is no
    placeholder and stays. -/
inductive Marked : List Char → List Char → Prop
  | literal {text : List Char} (plain : hasPlaceholder text = false) : Marked text text
  | placeholder {literal key behind shown : List Char}
      (first : position placeholderPrefix (literal ++ (placeholderPrefix ++ (key ++ behind))) = some literal.length)
      (named : key ≠ []) (keyChars : ∀ c ∈ key, isEnvKeyChar c = true)
      (ends : ∀ c ∈ behind.head?, isEnvKeyChar c = false) (later : Marked behind shown) :
      Marked (literal ++ (placeholderPrefix ++ (key ++ behind))) (literal ++ (credentialMark ++ shown))
  | bare {literal behind shown : List Char}
      (first : position placeholderPrefix (literal ++ (placeholderPrefix ++ behind)) = some literal.length)
      (ends : ∀ c ∈ behind.head?, isEnvKeyChar c = false) (later : Marked behind shown) :
      Marked (literal ++ (placeholderPrefix ++ behind)) (literal ++ (placeholderPrefix ++ shown))

theorem marked_of_rewritten {resolver : SecretResolver} {fuel : Nat} {segment resolved redacted : List Char}
    (enough : segment.length < fuel)
    (rewritten : rewritePathSegmentFor resolver fuel segment = .ok (resolved, redacted)) :
    Marked segment redacted := by
  induction fuel generalizing segment resolved redacted with
  | zero => omega
  | succ fuel ih =>
    unfold rewritePathSegmentFor at rewritten
    split at rewritten
    · rename_i missing
      cases rewritten
      exact .literal (hasPlaceholder_eq_false_iff.mpr missing)
    · rename_i start found
      obtain ⟨literal, behind, cut, length, taken, dropped⟩ := position_cut found
      obtain ⟨rest, cutBehind, droppedKey, ends⟩ := takeWhile_cut isEnvKeyChar behind
      have first : position placeholderPrefix (literal ++ (placeholderPrefix ++ behind)) = some literal.length := by
        rw [← cut, length]
        exact found
      have total := congrArg List.length cut
      have totalBehind := congrArg List.length cutBehind
      have prefixLength : placeholderPrefix.length = 22 := by decide
      rw [List.length_append, List.length_append] at total
      rw [List.length_append] at totalBehind
      simp only [taken, dropped, droppedKey] at rewritten
      split at rewritten
      · rename_i unnamed
        obtain ⟨⟨later, shown⟩, ran, rewritten⟩ := ok_of_bind rewritten
        cases rewritten
        rw [List.isEmpty_iff.mp unnamed, List.nil_append] at cutBehind
        rw [cut, List.append_assoc]
        apply Marked.bare first _ (ih (by omega) ran)
        rw [cutBehind]
        exact ends
      · rename_i named
        split at rewritten
        · cases rewritten
        · split at rewritten
          · cases rewritten
          · obtain ⟨⟨later, shown⟩, ran, rewritten⟩ := ok_of_bind rewritten
            cases rewritten
            rw [cutBehind] at first
            rw [cut, cutBehind, List.append_assoc]
            apply Marked.placeholder first _ _ ends (ih (by omega) ran)
            · simpa using named
            · exact fun c member => List.mem_takeWhile_imp member

section Marks

variable {text shown : List Char}

/-- The marks neither bring nor take away a character that can be no part of a placeholder or a mark. -/
theorem Marked.mem_iff {c : Char} (marked : Marked text shown) (outside : isEnvKeyChar c = false)
    (notPrefix : c ∉ placeholderPrefix) (notMark : c ∉ credentialMark) : c ∈ shown ↔ c ∈ text := by
  induction marked with
  | literal => rfl
  | @placeholder literal key behind shown _ _ keyChars _ _ ih =>
    have notKey : c ∉ key := by
      intro member
      rw [keyChars c member] at outside
      cases outside
    simp only [List.mem_append, notPrefix, notMark, notKey, false_or, ih]
  | bare _ _ _ ih => simp only [List.mem_append, notPrefix, false_or, ih]

def asciiCount (text : List Char) : Nat := text.countP fun c => c.toNat < 128

theorem asciiCount_append (text more : List Char) : asciiCount (text ++ more) = asciiCount text + asciiCount more :=
  List.countP_append

theorem Marked.asciiCount_le (marked : Marked text shown) : asciiCount shown ≤ asciiCount text := by
  induction marked with
  | literal => exact Nat.le_refl _
  | placeholder _ _ _ _ _ ih =>
    have mark : asciiCount credentialMark = 12 := by decide
    have lead : asciiCount placeholderPrefix = 22 := by decide
    simp only [asciiCount_append]
    omega
  | bare _ _ _ ih =>
    simp only [asciiCount_append]
    omega

/-- A placeholder takes more room than the mark in its place. -/
theorem Marked.asciiCount_lt (marked : Marked text shown) (placeholder : hasPlaceholder text = true)
    (hidden : hasPlaceholder shown = false) : asciiCount shown < asciiCount text := by
  cases marked with
  | literal plain =>
    rw [placeholder] at hidden
    cases hidden
  | placeholder _ _ _ _ later =>
    have mark : asciiCount credentialMark = 12 := by decide
    have lead : asciiCount placeholderPrefix = 22 := by decide
    have rest := later.asciiCount_le
    simp only [asciiCount_append]
    omega
  | @bare literal behind shown _ _ later =>
    rw [← Bool.not_eq_true, hasPlaceholder_iff] at hidden
    exact absurd ⟨literal, shown, by rw [List.append_assoc]⟩ hidden

end Marks

/-! Percent encoding and single characters. -/

theorem percentDecodeBytes_ascii (bytes : List UInt8) :
    (percentDecodeBytes bytes).countP (fun byte => byte < 0x80) ≤ bytes.countP fun byte => byte < 0x80 := by
  fun_induction percentDecodeBytes bytes with
  | case1 => exact Nat.le_refl _
  | case2 high low bytes value read ih =>
    have one : [value].countP (fun byte => byte < 0x80) ≤ 1 := List.countP_le_length
    have percent : List.countP (fun byte : UInt8 => byte < 0x80) [0x25] = 1 := by decide
    rw [← List.singleton_append, List.countP_append, show 0x25 :: high :: low :: bytes = [0x25] ++ ([high, low] ++ bytes) from rfl,
      List.countP_append, List.countP_append]
    omega
  | case3 high low bytes unread ih =>
    simp only [List.countP_cons]
    omega
  | case4 high => exact Nat.le_refl _
  | case5 byte bytes _ _ ih =>
    simp only [List.countP_cons]
    omega

theorem asciiCount_percentDecode (text : List Char) : asciiCount (percentDecode text) ≤ asciiCount text := by
  have decoded := (sameAscii_lossy (percentDecodeBytes (utf8Encode text))).count
  have encoded := (sameAscii_encode text).count
  have fewer := percentDecodeBytes_ascii (utf8Encode text)
  unfold asciiCount percentDecode
  omega

theorem notMem_percentEncode {stays : Char → Bool} {c : Char} (leaves : stays c = false)
    (outside : c ∉ '%' :: "0123456789ABCDEF".toList) (input : List Char) : c ∉ percentEncode stays input := by
  have digit : ∀ value, upperHexDigit value ∈ "0123456789ABCDEF".toList := by
    intro value
    unfold upperHexDigit
    rw [List.getD_eq_getElem?_getD]
    cases found : "0123456789ABCDEF".toList[value]? with
    | none => decide
    | some held => exact List.mem_of_getElem? found
  intro member
  obtain ⟨byte, _, here⟩ := List.mem_flatMap.mp member
  split at here
  · rename_i stayed
    rw [← List.mem_singleton.mp here, leaves] at stayed
    cases stayed
  · simp only [List.mem_cons, List.not_mem_nil, or_false] at here
    rcases here with percent | high | low
    · exact outside (by simp [percent])
    · exact outside (List.mem_cons_of_mem _ (high ▸ digit _))
    · exact outside (List.mem_cons_of_mem _ (low ▸ digit _))

/-! The segments of a path. -/

/-- How one segment of the path is shown, beside how it is sent. -/
def SegmentShown (segment shown sent : List Char) : Prop :=
  if hasPlaceholder (percentDecode segment) then Marked (percentDecode segment) shown ∧ '/' ∉ shown ∧ '?' ∉ shown
  else shown = sent

def SameSegments (path : List Char) (result : RewriteTargetResult) : Prop :=
  (split '/' result.redacted).length = (split '/' result.resolved).length ∧
    ∀ (index : Nat) (segment : List Char), (split '/' path)[index]? = some segment →
      ∃ shown sent, (split '/' result.redacted)[index]? = some shown ∧
        (split '/' result.resolved)[index]? = some sent ∧ SegmentShown segment shown sent

section Segments

variable {resolver : SecretResolver} {path segment : List Char} {result : RewriteTargetResult}

theorem rewriteSegment_spec {piece : RewrittenPiece} (whole : '/' ∉ segment)
    (ran : rewriteSegment resolver segment = .ok piece) :
    '/' ∉ piece.resolved ∧
      if hasPlaceholder (percentDecode segment) then Marked (percentDecode segment) piece.redacted
      else piece = ⟨segment, segment, false⟩ := by
  unfold rewriteSegment at ran
  cases placeholder : hasPlaceholder (percentDecode segment) with
  | false =>
    simp only [placeholder, Bool.not_false, if_true] at ran
    cases ran
    exact ⟨whole, rfl⟩
  | true =>
    simp only [placeholder, Bool.not_true, Bool.false_eq_true, if_false] at ran
    obtain ⟨⟨resolved, redacted⟩, rewritten, ran⟩ := ok_of_bind ran
    cases ran
    simp only [if_true]
    exact ⟨notMem_percentEncode (by decide) (by decide) _, marked_of_rewritten (Nat.lt_succ_self _) rewritten⟩

theorem rewriteSegment_untouched {piece : RewrittenPiece} (ran : rewriteSegment resolver segment = .ok piece)
    (untouched : piece.rewritten = false) : piece = ⟨segment, segment, false⟩ := by
  unfold rewriteSegment at ran
  simp only at ran
  split at ran
  · cases ran
    rfl
  · obtain ⟨_, _, ran⟩ := ok_of_bind ran
    cases ran
    cases untouched

/-- Pieces of which none was rewritten are put together to the text they came from. -/
theorem joinPieces_getD {rewrite : List Char → Except UnresolvedPlaceholderError RewrittenPiece} {separator : Char}
    {items : List (List Char)} {pieces : List RewrittenPiece}
    (kept : ∀ item piece, rewrite item = .ok piece → piece.rewritten = false → piece = ⟨item, item, false⟩)
    (each : List.Forall₂ (fun item piece => rewrite item = .ok piece) items pieces) :
    (joinPieces [separator] pieces).getD (join [separator] items, join [separator] items) =
      (join [separator] (pieces.map (·.resolved)), join [separator] (pieces.map (·.redacted))) := by
  unfold joinPieces
  split
  · rfl
  · rename_i untouched
    rw [Bool.not_eq_true] at untouched
    have same : pieces.map (·.resolved) = items ∧ pieces.map (·.redacted) = items := by
      induction each with
      | nil => exact ⟨rfl, rfl⟩
      | @cons item piece items pieces ran later ih =>
        rw [List.any_cons, Bool.or_eq_false_iff] at untouched
        obtain ⟨resolved, redacted⟩ := ih untouched.2
        rw [List.map_cons, List.map_cons, resolved, redacted, kept item piece ran untouched.1]
        exact ⟨rfl, rfl⟩
    rw [same.1, same.2]
    rfl

theorem rewriteUriPath_pieces {rewritten : Option (List Char × List Char)} (placeholder : hasPlaceholder path = true)
    (ran : rewriteUriPath resolver path = .ok rewritten) :
    ∃ pieces, List.Forall₂ (fun segment piece => rewriteSegment resolver segment = .ok piece)
        (split '/' path) pieces ∧
      rewritten.getD (path, path) =
        (join ['/'] (pieces.map (·.resolved)), join ['/'] (pieces.map (·.redacted))) := by
  unfold rewriteUriPath at ran
  simp only [placeholder, Bool.not_true, Bool.false_eq_true, if_false] at ran
  obtain ⟨pieces, mapped, ran⟩ := ok_of_bind ran
  cases ran
  have each := forall₂_of_mapM mapped
  have joined := @joinPieces_getD (rewriteSegment resolver) '/' _ _ (fun _ _ => rewriteSegment_untouched) each
  rw [join_split] at joined
  exact ⟨pieces, each, joined⟩

theorem rewriteTargetForEval_cases (noQuery : '?' ∉ path)
    (ran : rewriteTargetForEval resolver path = .ok result) :
    (hasPlaceholder path = false ∧ result = ⟨path, path⟩) ∨
      hasPlaceholder path = true ∧ ∃ pieces,
        List.Forall₂ (fun segment piece => rewriteSegment resolver segment = .ok piece) (split '/' path) pieces ∧
        result = ⟨join ['/'] (pieces.map (·.resolved)), join ['/'] (pieces.map (·.redacted))⟩ := by
  unfold rewriteTargetForEval at ran
  cases placeholder : hasPlaceholder path with
  | false =>
    simp only [placeholder, Bool.not_false, if_true] at ran
    split at ran
    · cases ran
    · cases ran
      exact .inl ⟨rfl, rfl⟩
  | true =>
    simp only [placeholder, Bool.not_true, Bool.false_eq_true, if_false] at ran
    unfold rewriteUri at ran
    rw [splitOnce_of_notMem noQuery] at ran
    obtain ⟨rewritten, ranPath, ran⟩ := ok_of_bind ran
    obtain ⟨pieces, each, joined⟩ := rewriteUriPath_pieces placeholder ranPath
    rw [joined] at ran
    cases ran
    exact .inr ⟨rfl, pieces, each, rfl⟩

/-- A separator next to a placeholder, in encoded form, is one the policy is shown. -/
def SeparatorsApart (path : List Char) : Prop :=
  ∀ segment ∈ split '/' path, hasPlaceholder (percentDecode segment) = true →
    '/' ∉ percentDecode segment ∧ '?' ∉ percentDecode segment

theorem separatorsApart_of_same (same : SameSegments path result) : SeparatorsApart path := by
  intro segment member placeholder
  obtain ⟨index, found⟩ := List.mem_iff_getElem?.mp member
  obtain ⟨shown, sent, _, _, segmentShown⟩ := same.2 index segment found
  unfold SegmentShown at segmentShown
  rw [if_pos placeholder] at segmentShown
  obtain ⟨marked, noSlash, noQuery⟩ := segmentShown
  constructor
  · rwa [← marked.mem_iff (by decide) (by decide) (by decide)]
  · rwa [← marked.mem_iff (by decide) (by decide) (by decide)]

/-- Where no placeholder stands in the path as it is, one that only a segment's own decoding brings to
    light is shown unmarked. -/
theorem plain_of_same_unresolved (plain : hasPlaceholder path = false) (same : SameSegments path ⟨path, path⟩) :
    ∀ segment ∈ split '/' path, hasPlaceholder (percentDecode segment) = false := by
  intro segment member
  by_contra placeholder
  rw [Bool.not_eq_false] at placeholder
  obtain ⟨index, found⟩ := List.mem_iff_getElem?.mp member
  obtain ⟨shown, sent, foundShown, _, segmentShown⟩ := same.2 index segment found
  unfold SegmentShown at segmentShown
  rw [if_pos placeholder] at segmentShown
  have shownSame : shown = segment := by
    rw [found] at foundShown
    exact (Option.some.inj foundShown).symm
  have hidden : hasPlaceholder shown = false := by
    rw [← Bool.not_eq_true, hasPlaceholder_iff] at plain ⊢
    intro within
    rw [shownSame] at within
    exact plain (within.trans (infix_of_mem_split member))
  have fewer := segmentShown.1.asciiCount_lt placeholder hidden
  have decoded := asciiCount_percentDecode segment
  rw [shownSame] at fewer
  omega

theorem pieces_spec {segments : List (List Char)} {pieces : List RewrittenPiece}
    (each : List.Forall₂ (fun segment piece => rewriteSegment resolver segment = .ok piece) segments pieces)
    (whole : ∀ segment ∈ segments, '/' ∉ segment)
    (apart : ∀ segment ∈ segments, hasPlaceholder (percentDecode segment) = true →
      '/' ∉ percentDecode segment ∧ '?' ∉ percentDecode segment) :
    List.Forall₂ (fun segment piece => '/' ∉ piece.resolved ∧ '/' ∉ piece.redacted ∧
      SegmentShown segment piece.redacted piece.resolved) segments pieces := by
  induction each with
  | nil => exact .nil
  | @cons segment piece segments pieces ran later ih =>
    have here := List.mem_cons_self (a := segment) (l := segments)
    obtain ⟨resolved, shown⟩ := rewriteSegment_spec (whole segment here) ran
    apply List.Forall₂.cons
    · unfold SegmentShown
      cases placeholder : hasPlaceholder (percentDecode segment) with
      | false =>
        simp only [placeholder, Bool.false_eq_true, if_false] at shown ⊢
        rw [shown]
        exact ⟨whole segment here, whole segment here, rfl⟩
      | true =>
        simp only [placeholder, if_true] at shown ⊢
        obtain ⟨noSlash, noQuery⟩ := apart segment here placeholder
        rw [← shown.mem_iff (by decide) (by decide) (by decide)] at noSlash noQuery
        exact ⟨resolved, noSlash, shown, noSlash, noQuery⟩
    · exact ih (fun segment member => whole segment (List.mem_cons_of_mem _ member))
        fun segment member => apart segment (List.mem_cons_of_mem _ member)

/-- Pieces without the separator are found again in the text they are put together to. -/
theorem split_pieces {separator : Char} {related : List Char → RewrittenPiece → Prop} {items : List (List Char)}
    {pieces : List RewrittenPiece} {view : RewrittenPiece → List Char} (each : List.Forall₂ related items pieces)
    (filled : items ≠ []) (whole : ∀ item ∈ items, ∀ piece, related item piece → separator ∉ view piece) :
    split separator (join [separator] (pieces.map view)) = pieces.map view := by
  have some_piece := ne_nil_of_forall₂ each filled
  apply split_join (by simpa using some_piece)
  intro text member
  obtain ⟨piece, inside, rfl⟩ := List.mem_map.mp member
  obtain ⟨item, itemIn, holds⟩ := exists_of_forall₂ each inside
  exact whole item itemIn piece holds

theorem same_of_pieces {pieces : List RewrittenPiece}
    (each : List.Forall₂ (fun segment piece => '/' ∉ piece.resolved ∧ '/' ∉ piece.redacted ∧
      SegmentShown segment piece.redacted piece.resolved) (split '/' path) pieces) :
    SameSegments path ⟨join ['/'] (pieces.map (·.resolved)), join ['/'] (pieces.map (·.redacted))⟩ := by
  have length := each.length_eq
  have resolved : split '/' (join ['/'] (pieces.map (·.resolved))) = pieces.map (·.resolved) :=
    split_pieces each split_ne_nil fun _ _ _ spec => spec.1
  have redacted : split '/' (join ['/'] (pieces.map (·.redacted))) = pieces.map (·.redacted) :=
    split_pieces each split_ne_nil fun _ _ _ spec => spec.2.1
  unfold SameSegments
  rw [resolved, redacted]
  constructor
  · simp
  · intro index segment found
    obtain ⟨bound, same⟩ := List.getElem?_eq_some_iff.mp found
    have here := each.get (i := index) bound (by omega)
    have piece : pieces[index]? = some pieces[index] := List.getElem?_eq_getElem _
    refine ⟨pieces[index].redacted, pieces[index].resolved, ?_, ?_, ?_⟩
    · rw [List.getElem?_map, piece]
      rfl
    · rw [List.getElem?_map, piece]
      rfl
    · rw [← same]
      exact here.2.2

/-- The path shown and the path sent have the same segments exactly if no segment with a placeholder holds
    an encoded separator, and every placeholder that a segment decodes to is seen in the path as it is. -/
theorem sameSegments_iff (noQuery : '?' ∉ path) (ran : rewriteTargetForEval resolver path = .ok result) :
    SameSegments path result ↔ SeparatorsApart path ∧
      (hasPlaceholder path = true ∨ ∀ segment ∈ split '/' path, hasPlaceholder (percentDecode segment) = false) := by
  rcases rewriteTargetForEval_cases noQuery ran with ⟨plain, same⟩ | ⟨placeholder, pieces, each, same⟩
  · subst same
    constructor
    · intro shown
      exact ⟨separatorsApart_of_same shown, .inr (plain_of_same_unresolved plain shown)⟩
    · rintro ⟨_, seen⟩
      rw [plain, or_iff_right (by simp)] at seen
      refine ⟨rfl, fun index segment found => ⟨segment, segment, found, found, ?_⟩⟩
      unfold SegmentShown
      rw [seen segment (List.mem_of_getElem? found)]
      rfl
  · subst same
    constructor
    · intro shown
      exact ⟨separatorsApart_of_same shown, .inl placeholder⟩
    · rintro ⟨apart, _⟩
      exact same_of_pieces (pieces_spec each (fun segment => notMem_of_mem_split) apart)

end Segments

section Example

theorem keyTarget_segments : '?' ∉ keyTarget ∧
    SameSegments keyTarget ⟨"/bota/send".toList, "/bot[CREDENTIAL]/send".toList⟩ := by
  have noQuery : '?' ∉ keyTarget := by decide
  have ran : rewriteTargetForEval (keyResolver "a".toList) keyTarget =
      .ok ⟨"/bota/send".toList, "/bot[CREDENTIAL]/send".toList⟩ := by rfl
  have apart : SeparatorsApart keyTarget := by
    unfold SeparatorsApart
    decide +kernel
  have seen : hasPlaceholder keyTarget = true := by decide
  exact ⟨noQuery, (sameSegments_iff noQuery ran).mpr ⟨apart, .inl seen⟩⟩

def slashTarget : List Char := "/private%2F".toList ++ placeholderForEnvKey "KEY".toList

/-- The policy is shown three segments where two are sent. -/
theorem slashTarget_segments : ∃ result, rewriteTargetForEval (keyResolver "a".toList) slashTarget = .ok result ∧
    result.resolved = "/private%2Fa".toList ∧ result.redacted = "/private/[CREDENTIAL]".toList ∧
    ¬ SameSegments slashTarget result := by
  refine ⟨⟨"/private%2Fa".toList, "/private/[CREDENTIAL]".toList⟩, by rfl, rfl, rfl, ?_⟩
  rintro ⟨length, _⟩
  revert length
  decide

end Example

end OpenShell.Sandbox
