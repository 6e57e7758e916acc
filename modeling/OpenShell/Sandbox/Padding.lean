import OpenShell.Sandbox.PathSegments

namespace OpenShell.Sandbox

open Text Results

/-! Whitespace in a target is not lost when credentials are put into it. -/

def White (text : List Char) : Prop := ∀ c ∈ text, isWhitespace c = true

def Plain (text : List Char) : Prop := ∀ c ∈ text, isWhitespace c = false

section Characters

variable {c : Char}

theorem white_of_alphanum (alphanum : c.isAlphanum = true) : isWhitespace c = false := by
  have range := alphanum_range alphanum
  simp only [isWhitespace, Bool.or_eq_false_iff, Bool.and_eq_false_iff, decide_eq_false_iff_not]
  omega

theorem white_of_digit (digit : (toDigit 16 c).isSome = true) : isWhitespace c = false ∧ c.toNat < 128 := by
  unfold toDigit at digit
  simp only [Char.le_def, UInt32.le_iff_toNat_le] at digit
  change (Option.filter _ (if 48 ≤ c.toNat ∧ c.toNat ≤ 57 then _ else if 97 ≤ c.toNat ∧ c.toNat ≤ 122 then _
    else if 65 ≤ c.toNat ∧ c.toNat ≤ 90 then _ else none)).isSome = true at digit
  simp only [isWhitespace, Bool.or_eq_false_iff, Bool.and_eq_false_iff, decide_eq_false_iff_not]
  split at digit
  · omega
  · split at digit
    · omega
    · split at digit
      · omega
      · cases digit

theorem white_of_unreserved (stays : isUnreserved c = true) : isWhitespace c = false := by
  simp only [isUnreserved, Bool.or_eq_true, decide_eq_true_eq] at stays
  rcases stays with (((alphanum | rfl) | rfl) | rfl) | rfl
  · exact white_of_alphanum alphanum
  · decide
  · decide
  · decide
  · decide

theorem white_of_segment (stays : (isUnreserved c || isSubDelim c) = true) : isWhitespace c = false := by
  rw [Bool.or_eq_true] at stays
  rcases stays with unreserved | delimiter
  · exact white_of_unreserved unreserved
  · have listed : ∀ d ∈ "!$&'()*+,;=:@".toList, isWhitespace d = false := plain_of_all (by decide)
    exact listed c (by simpa [isSubDelim] using delimiter)

theorem white_of_envKey (inKey : isEnvKeyChar c = true) : isWhitespace c = false := by
  simp only [isEnvKeyChar, Bool.or_eq_true, decide_eq_true_eq] at inKey
  rcases inKey with alphanum | rfl
  · exact white_of_alphanum alphanum
  · decide

theorem plain_placeholderPrefix : Plain placeholderPrefix := plain_of_all (by decide)

theorem plain_percentEncode {stays : Char → Bool} (kept : ∀ c, stays c = true → isWhitespace c = false)
    (input : List Char) : Plain (percentEncode stays input) := by
  intro c member
  by_contra white
  have leaves : stays c = false := by
    by_contra stayed
    rw [Bool.not_eq_false] at stayed
    exact white (kept c stayed)
  have outside : c ∉ '%' :: "0123456789ABCDEF".toList := by
    intro listed
    have plain : ∀ d ∈ '%' :: "0123456789ABCDEF".toList, isWhitespace d = false := plain_of_all (by decide)
    exact white (plain c listed)
  exact notMem_percentEncode leaves outside input member

end Characters

/-! Percent decoding passes over whitespace. -/

/-- No escape has this byte. -/
def Inert (byte : UInt8) : Prop := ∀ c : Char, c.toNat < 128 → asciiByte c = byte → isWhitespace c = true

theorem inert_white {text : List Char} (white : White text) : ∀ byte ∈ utf8Encode text, Inert byte := by
  intro byte member c small same
  rw [← same, (sameAscii_encode text).mem_iff small] at member
  exact white c member

theorem parseDigits_digits {radix bound read value : Nat} {text : List Char}
    (parsed : parseDigits radix bound read text = some value) : ∀ c ∈ text, (toDigit radix c).isSome = true := by
  induction text generalizing read with
  | nil =>
    intro c member
    cases member
  | cons d text ih =>
    rw [parseDigits] at parsed
    cases digit : toDigit radix d with
    | none =>
      rw [digit] at parsed
      cases parsed
    | some held =>
      rw [digit] at parsed
      simp only [Option.bind_eq_bind, Option.bind_some] at parsed
      split at parsed
      · intro c member
        rcases List.mem_cons.mp member with here | later
        · rw [here, digit]
          rfl
        · exact ih parsed c later
      · cases parsed

theorem parseUnsigned_plain {bound value : Nat} {text : List Char} (parsed : parseUnsigned 16 bound text = some value) :
    ∀ c ∈ text, isWhitespace c = false ∧ c.toNat < 128 := by
  unfold parseUnsigned at parsed
  simp only at parsed
  generalize body : (if text.head? = some '+' then text.tail else text) = number at parsed
  split at parsed
  · cases parsed
  · have digits := parseDigits_digits parsed
    rw [← body] at digits
    intro c member
    split at digits
    · rename_i plus
      obtain ⟨rest, same⟩ := List.head?_eq_some_iff.mp plus
      rw [same] at member digits
      rcases List.mem_cons.mp member with here | later
      · rw [here]
        decide
      · exact white_of_digit (digits c later)
    · exact white_of_digit (digits c member)

theorem hexByte_plain {high low value : UInt8} (read : hexByte high low = some value) :
    ¬ Inert high ∧ ¬ Inert low := by
  unfold hexByte at read
  obtain ⟨text, decoded, read⟩ := Option.bind_eq_some_iff.mp read
  obtain ⟨number, parsed, _⟩ := Option.bind_eq_some_iff.mp read
  have plain := parseUnsigned_plain parsed
  have encoded := utf8Decode_eq_some decoded
  rw [utf8Encode_ascii fun c member => (plain c member).2] at encoded
  obtain ⟨first, rest, rfl, here, later⟩ := List.map_eq_cons_iff.mp encoded
  obtain ⟨second, more, rfl, there, _⟩ := List.map_eq_cons_iff.mp later
  constructor
  · intro inert
    have white := inert first (plain first (by simp)).2 here
    rw [(plain first (by simp)).1] at white
    cases white
  · intro inert
    have white := inert second (plain second (by simp)).2 there
    rw [(plain second (by simp)).1] at white
    cases white

theorem hexByte_inert {high low : UInt8} (inert : Inert high ∨ Inert low) : hexByte high low = none := by
  cases read : hexByte high low with
  | none => rfl
  | some value =>
    have plain := hexByte_plain read
    tauto

theorem percent_not_inert {byte : UInt8} (inert : Inert byte) : byte ≠ 0x25 := by
  intro same
  have white := inert '%' (by decide) (by rw [same]; decide)
  revert white
  decide

theorem percentDecodeBytes_other {byte : UInt8} (other : byte ≠ 0x25) (bytes : List UInt8) :
    percentDecodeBytes (byte :: bytes) = byte :: percentDecodeBytes bytes := by
  rw [percentDecodeBytes]
  · intro high low rest same
    exact absurd same other
  · intro high same
    exact absurd same other

theorem percentDecodeBytes_lead {lead : List UInt8} (inert : ∀ byte ∈ lead, Inert byte) (bytes : List UInt8) :
    percentDecodeBytes (lead ++ bytes) = lead ++ percentDecodeBytes bytes := by
  induction lead with
  | nil => rfl
  | cons byte lead ih =>
    have other := percent_not_inert (inert byte (List.mem_cons_self ..))
    rw [List.cons_append, percentDecodeBytes_other other, ih fun byte member => inert byte (List.mem_cons_of_mem _ member)]
    rfl

theorem percentDecodeBytes_unread {high low : UInt8} (unread : hexByte high low = none) (bytes : List UInt8) :
    percentDecodeBytes (0x25 :: high :: low :: bytes) = 0x25 :: high :: low :: percentDecodeBytes bytes := by
  rw [percentDecodeBytes, unread]

/-- An open escape is not closed by bytes that are in none. -/
theorem percentDecodeBytes_open {first : UInt8} {kept : List UInt8} (inert : ∀ byte ∈ first :: kept, Inert byte)
    (after : List UInt8) :
    ∃ rest, percentDecodeBytes (0x25 :: first :: (kept ++ after)) = 0x25 :: first :: (kept ++ rest) ∧
      (after = [] → rest = []) := by
  have firstInert := inert first (List.mem_cons_self ..)
  cases kept with
  | nil =>
    cases after with
    | nil => exact ⟨[], rfl, fun _ => rfl⟩
    | cons low after =>
      rw [List.nil_append, percentDecodeBytes_unread (hexByte_inert (.inl firstInert))]
      exact ⟨_, rfl, fun empty => nomatch empty⟩
  | cons low kept =>
    rw [List.cons_append, percentDecodeBytes_unread (hexByte_inert (.inl firstInert)), percentDecodeBytes_lead]
    · exact ⟨_, rfl, fun empty => by rw [empty]; rfl⟩
    · intro byte member
      exact inert byte (by simp [member])

/-- Bytes that are in no escape stay as they are and where they are. -/
theorem percentDecodeBytes_inert {kept : List UInt8} (filled : kept ≠ []) (inert : ∀ byte ∈ kept, Inert byte)
    (before after : List UInt8) :
    ∃ rest, percentDecodeBytes (before ++ (kept ++ after)) = percentDecodeBytes before ++ (kept ++ rest) ∧
      (after = [] → rest = []) := by
  obtain ⟨first, more, rfl⟩ := List.exists_cons_of_ne_nil filled
  have firstInert := inert first (List.mem_cons_self ..)
  fun_induction percentDecodeBytes before with
  | case1 =>
    rw [List.nil_append, percentDecodeBytes_lead inert]
    exact ⟨_, rfl, fun empty => by rw [empty]; rfl⟩
  | case2 high low bytes value read ih =>
    obtain ⟨rest, same, ended⟩ := ih
    refine ⟨rest, ?_, ended⟩
    rw [List.cons_append, List.cons_append, List.cons_append, percentDecodeBytes, read]
    exact congrArg _ same
  | case3 high low bytes unread ih =>
    obtain ⟨rest, same, ended⟩ := ih
    refine ⟨rest, ?_, ended⟩
    rw [List.cons_append, List.cons_append, List.cons_append, percentDecodeBytes_unread unread, same]
    rfl
  | case4 high =>
    rw [List.cons_append, List.cons_append, List.nil_append, List.cons_append,
      percentDecodeBytes_unread (hexByte_inert (.inr firstInert)), percentDecodeBytes_lead]
    · exact ⟨_, rfl, fun empty => by rw [empty]; rfl⟩
    · intro byte member
      exact inert byte (List.mem_cons_of_mem _ member)
  | case5 byte bytes notTriple notPair ih =>
    by_cases percent : byte = 0x25
    · have alone : bytes = [] := by
        cases bytes with
        | nil => rfl
        | cons high bytes =>
          cases bytes with
          | nil => exact absurd rfl (notPair high percent)
          | cons low bytes => exact absurd rfl (notTriple high low bytes percent)
      rw [alone, percent]
      exact percentDecodeBytes_open inert after
    · obtain ⟨rest, same, ended⟩ := ih
      refine ⟨rest, ?_, ended⟩
      rw [List.cons_append, percentDecodeBytes_other percent, same]
      rfl

theorem mem_percentDecode {c : Char} {text : List Char} (white : isWhitespace c = true) (member : c ∈ text) :
    c ∈ percentDecode text := by
  obtain ⟨before, after, same⟩ := List.append_of_mem member
  have inert : ∀ byte ∈ utf8Encode [c], Inert byte := inert_white fun d inside => by rwa [List.mem_singleton.mp inside]
  obtain ⟨rest, decoded, _⟩ := percentDecodeBytes_inert (utf8Encode_cons_ne_nil c []) inert (utf8Encode before) (utf8Encode after)
  unfold percentDecode
  rw [same, List.append_cons, List.append_assoc, utf8Encode_append, utf8Encode_append, decoded, utf8DecodeLossy_around]
  simp

theorem percentDecode_padded {lead trail : List Char} (whiteLead : White lead) (whiteTrail : White trail)
    (text : List Char) : percentDecode (lead ++ (text ++ trail)) = lead ++ (percentDecode text ++ trail) := by
  unfold percentDecode
  rw [utf8Encode_append, percentDecodeBytes_lead (inert_white whiteLead), utf8DecodeLossy_append]
  congr 1
  cases trail with
  | nil => simp
  | cons c trail =>
    obtain ⟨rest, decoded, ended⟩ :=
      percentDecodeBytes_inert (utf8Encode_cons_ne_nil c trail) (inert_white whiteTrail) (utf8Encode text) []
    rw [ended rfl, List.append_nil] at decoded
    rw [utf8Encode_append, decoded]
    have around := utf8DecodeLossy_around (percentDecodeBytes (utf8Encode text)) [] c trail
    rwa [show utf8DecodeLossy [] = [] from rfl, List.append_nil, List.append_nil] at around

/-! Placeholders with whitespace around them. -/

section Segments

variable {resolver : SecretResolver} {lead trail segment resolved redacted : List Char}

theorem position_padded (whiteLead : White lead) (whiteTrail : White trail) (text : List Char) :
    position placeholderPrefix (lead ++ (text ++ trail)) = (position placeholderPrefix text).map (· + lead.length) := by
  have apart : ∀ {padding : List Char}, White padding → ∀ c ∈ placeholderPrefix, c ∉ padding := by
    intro padding white c inPrefix member
    have plain := plain_placeholderPrefix c inPrefix
    rw [white c member] at plain
    cases plain
  have first : 'o' ∉ lead := apart whiteLead 'o' (by decide)
  have shifted := @position_lead Char _ 'o' placeholderPrefix.tail lead first (text ++ trail)
  rw [show 'o' :: placeholderPrefix.tail = placeholderPrefix by decide] at shifted
  rw [shifted, position_trail (by decide) (apart whiteTrail)]

theorem hasPlaceholder_padded (whiteLead : White lead) (whiteTrail : White trail) (text : List Char) :
    hasPlaceholder (lead ++ (text ++ trail)) = hasPlaceholder text := by
  rw [Bool.eq_iff_iff, ← not_iff_not, Bool.not_eq_true, Bool.not_eq_true, hasPlaceholder_eq_false_iff,
    hasPlaceholder_eq_false_iff, position_padded whiteLead whiteTrail, Option.map_eq_none_iff]

theorem takeWhile_trail {stays : Char → Bool} (stop : ∀ c ∈ trail, stays c = false) (text : List Char) :
    (text ++ trail).takeWhile stays = text.takeWhile stays := by
  induction text with
  | nil =>
    cases trail with
    | nil => rfl
    | cons c trail => simp [stop c (List.mem_cons_self ..)]
  | cons d text ih => rw [List.cons_append, List.takeWhile_cons, List.takeWhile_cons, ih]

/-- What stands before and behind a placeholder, with padding and without. -/
theorem padded_cut {start : Nat} (lead trail : List Char) (found : position placeholderPrefix segment = some start) :
    ∃ literal behind, segment.length = literal.length + (22 + behind.length) ∧ segment.take start = literal ∧
      segment.drop (start + placeholderPrefix.length) = behind ∧
      (lead ++ (segment ++ trail)).take (start + lead.length) = lead ++ literal ∧
      (lead ++ (segment ++ trail)).drop (start + lead.length + placeholderPrefix.length) = behind ++ trail := by
  obtain ⟨literal, behind, cut, length, taken, dropped⟩ := position_cut found
  have padded : lead ++ (segment ++ trail) = (lead ++ literal) ++ (placeholderPrefix ++ (behind ++ trail)) := by
    rw [cut]
    simp only [List.append_assoc]
  have offset : start + lead.length = (lead ++ literal).length := by
    rw [List.length_append]
    omega
  refine ⟨literal, behind, ?_, taken, dropped, ?_, ?_⟩
  · have prefixLength : placeholderPrefix.length = 22 := by decide
    rw [cut, List.length_append, List.length_append, prefixLength]
  · rw [padded, offset, List.take_left]
  · rw [padded, offset, ← List.drop_drop, List.drop_left, List.drop_left]

theorem envKey_of_white (white : White trail) : ∀ c ∈ trail, isEnvKeyChar c = false := by
  intro c member
  by_contra inKey
  rw [Bool.not_eq_false] at inKey
  have plain := white_of_envKey inKey
  rw [white c member] at plain
  cases plain

theorem rewritePathSegmentFor_padded {fuel other : Nat} (whiteLead : White lead) (whiteTrail : White trail)
    (enough : segment.length < fuel) (room : (lead ++ (segment ++ trail)).length < other)
    (ran : rewritePathSegmentFor resolver fuel segment = .ok (resolved, redacted)) :
    ∃ shown, rewritePathSegmentFor resolver other (lead ++ (segment ++ trail)) =
      .ok (lead ++ (resolved ++ trail), shown) := by
  have stop := envKey_of_white whiteTrail
  induction fuel generalizing lead segment resolved redacted other with
  | zero => omega
  | succ fuel ih =>
    obtain ⟨left, rfl⟩ : ∃ left, other = left + 1 := ⟨other - 1, by omega⟩
    unfold rewritePathSegmentFor at ran ⊢
    rw [position_padded whiteLead whiteTrail]
    cases found : position placeholderPrefix segment with
    | none =>
      rw [found] at ran
      cases ran
      exact ⟨_, rfl⟩
    | some start =>
      obtain ⟨literal, behind, total, taken, dropped, takenPadded, droppedPadded⟩ := padded_cut lead trail found
      rw [List.length_append, List.length_append] at room
      rw [found] at ran
      simp only [taken, dropped] at ran
      simp only [Option.map_some, takenPadded, droppedPadded, takeWhile_trail stop]
      split at ran
      · rename_i unnamed
        obtain ⟨⟨later, shown⟩, ranLater, ran⟩ := ok_of_bind ran
        cases ran
        rw [if_pos unnamed]
        obtain ⟨shownToo, ranToo⟩ := @ih _ _ _ _ left (show White [] by simp [White]) (by omega)
          (by simp only [List.nil_append, List.length_append]; omega) ranLater
        rw [List.nil_append, List.nil_append] at ranToo
        simp only [ranToo, bind, Except.bind, pure, Except.pure]
        exact ⟨_, by simp only [List.append_assoc]; rfl⟩
      · rename_i named
        rw [if_neg named]
        split at ran
        · cases ran
        · rename_i secret resolves
          split at ran
          · cases ran
          · rename_i valid
            obtain ⟨⟨later, shown⟩, ranLater, ran⟩ := ok_of_bind ran
            cases ran
            have short : (behind.takeWhile isEnvKeyChar).length ≤ behind.length := (List.takeWhile_prefix _).length_le
            obtain ⟨shownToo, ranToo⟩ := @ih _ _ _ _ left (show White [] by simp [White])
              (by rw [List.length_drop]; omega)
              (by simp only [List.nil_append, List.length_append, List.length_drop]; omega) ranLater
            rw [List.nil_append, List.nil_append] at ranToo
            simp only [List.drop_append_of_le_length short, ranToo, bind, Except.bind, pure, Except.pure]
            exact ⟨_, by simp only [List.append_assoc]; rfl⟩

theorem percentEncode_append (stays : Char → Bool) (first second : List Char) :
    percentEncode stays (first ++ second) = percentEncode stays first ++ percentEncode stays second := by
  unfold percentEncode
  rw [utf8Encode_append, List.flatMap_append]

theorem length_percentEncode (stays : Char → Bool) (text : List Char) :
    text.length ≤ (percentEncode stays text).length := by
  induction text with
  | nil => exact Nat.zero_le _
  | cons c text ih =>
    have one : 1 ≤ (percentEncode stays [c]).length := by
      obtain ⟨lead, more, encoded, _⟩ := encode_lead c
      unfold percentEncode
      rw [utf8Encode_cons, encoded, List.cons_append, List.flatMap_cons, List.length_append]
      split
      · simp
      · simp only [List.length_cons]
        omega
    rw [← List.singleton_append, percentEncode_append, List.length_append, List.length_append, List.length_singleton]
    omega

/-- Whitespace around a segment adds at least its own length to what is sent. -/
theorem rewriteSegment_padded {piece : RewrittenPiece} (whiteLead : White lead) (whiteTrail : White trail)
    (ran : rewriteSegment resolver segment = .ok piece) :
    ∃ padded, rewriteSegment resolver (lead ++ (segment ++ trail)) = .ok padded ∧
      piece.resolved.length + (lead.length + trail.length) ≤ padded.resolved.length := by
  unfold rewriteSegment at ran ⊢
  simp only [percentDecode_padded whiteLead whiteTrail, hasPlaceholder_padded whiteLead whiteTrail]
  simp only at ran
  split at ran
  · rename_i plain
    cases ran
    rw [if_pos plain]
    refine ⟨_, rfl, ?_⟩
    simp only [List.length_append]
    omega
  · rename_i placeholder
    obtain ⟨⟨resolved, redacted⟩, rewritten, ran⟩ := ok_of_bind ran
    cases ran
    rw [if_neg placeholder]
    obtain ⟨shown, rewrittenToo⟩ := rewritePathSegmentFor_padded whiteLead whiteTrail (Nat.lt_succ_self _)
      (Nat.lt_succ_self _) rewritten
    unfold rewritePathSegment
    rw [rewrittenToo]
    refine ⟨_, rfl, ?_⟩
    have before := length_percentEncode (fun c => isUnreserved c || isSubDelim c) lead
    have behind := length_percentEncode (fun c => isUnreserved c || isSubDelim c) trail
    simp only [percentEncodePathSegment, percentEncode_append, List.length_append]
    omega

end Segments

/-! The path with its credentials. -/

/-- The path is sent as this text. -/
def Resolves (resolver : SecretResolver) (path sent : List Char) : Prop :=
  ∃ rewritten, rewriteUriPath resolver path = .ok rewritten ∧ sent = (rewritten.getD (path, path)).1

section Paths

variable {resolver : SecretResolver} {path sent lead trail : List Char}

theorem resolves_cases (resolves : Resolves resolver path sent) :
    (hasPlaceholder path = false ∧ sent = path) ∨ (hasPlaceholder path = true ∧ ∃ pieces,
      List.Forall₂ (fun segment piece => rewriteSegment resolver segment = .ok piece) (split '/' path) pieces ∧
      sent = join ['/'] (pieces.map (·.resolved))) := by
  obtain ⟨rewritten, ran, same⟩ := resolves
  cases placeholder : hasPlaceholder path with
  | false =>
    left
    unfold rewriteUriPath at ran
    simp only [placeholder, Bool.not_false, if_true] at ran
    cases ran
    exact ⟨rfl, same⟩
  | true =>
    right
    obtain ⟨pieces, each, joined⟩ := rewriteUriPath_pieces placeholder ran
    rw [joined] at same
    exact ⟨rfl, pieces, each, same⟩

/-- The segment has whitespace put around it. -/
def Padded (segment padded : List Char) : Prop :=
  ∃ lead trail, White lead ∧ White trail ∧ padded = lead ++ (segment ++ trail)

theorem slash_notMem_white {padding : List Char} (white : White padding) : '/' ∉ padding := by
  intro member
  have here := white '/' member
  revert here
  decide

theorem split_whole {piece : List Char} (whole : '/' ∉ piece) : split '/' piece = [piece] := by
  apply splitWhen_whole
  intro c member
  have other : c ≠ '/' := by
    intro same
    rw [same] at member
    exact whole member
  simpa using other

theorem split_append {piece : List Char} (whole : '/' ∉ piece) (text : List Char) :
    split '/' (piece ++ '/' :: text) = piece :: split '/' text := by
  unfold split
  rw [splitWhen_append_cons (by decide)]
  exact congrArg (· ++ splitWhen (· = '/') text) (split_whole whole)

/-- Whitespace around a path is whitespace around its first and last segment. -/
theorem split_padded (whiteLead : White lead) (whiteTrail : White trail) (text : List Char) :
    List.Forall₂ Padded (split '/' text) (split '/' (lead ++ (text ++ trail))) := by
  induction length : text.length using Nat.strong_induction_on generalizing text lead with
  | _ size ih =>
    by_cases cut : '/' ∈ text
    · obtain ⟨before, after, same, whole⟩ := List.eq_append_cons_of_mem cut
      have shorter := congrArg List.length same
      rw [List.length_append, List.length_cons] at shorter
      have wholeToo : '/' ∉ lead ++ before := by
        rw [List.mem_append, not_or]
        exact ⟨slash_notMem_white whiteLead, whole⟩
      have later := @ih after.length (by omega) [] (by simp [White]) after rfl
      have padded : lead ++ ((before ++ '/' :: after) ++ trail) = (lead ++ before) ++ '/' :: (after ++ trail) := by
        simp
      rw [same, padded, split_append whole, split_append wholeToo]
      exact .cons ⟨lead, [], whiteLead, by simp [White], by simp⟩ later
    · have whole : '/' ∉ lead ++ (text ++ trail) := by
        rw [List.mem_append, List.mem_append, not_or, not_or]
        exact ⟨slash_notMem_white whiteLead, cut, slash_notMem_white whiteTrail⟩
      rw [split_whole cut, split_whole whole]
      exact .cons ⟨lead, trail, whiteLead, whiteTrail, rfl⟩ .nil

theorem padded_pieces {segments padded : List (List Char)} {pieces others : List RewrittenPiece}
    (each : List.Forall₂ Padded segments padded)
    (ran : List.Forall₂ (fun segment piece => rewriteSegment resolver segment = .ok piece) segments pieces)
    (ranToo : List.Forall₂ (fun segment piece => rewriteSegment resolver segment = .ok piece) padded others) :
    (pieces.map fun piece => piece.resolved.length + 1).sum + (padded.map fun text => text.length + 1).sum ≤
      (others.map fun piece => piece.resolved.length + 1).sum + (segments.map fun text => text.length + 1).sum := by
  induction each generalizing pieces others with
  | nil =>
    cases ran
    cases ranToo
    exact Nat.le_refl _
  | cons here later ih =>
    obtain ⟨lead, trail, whiteLead, whiteTrail, rfl⟩ := here
    cases ran with
    | cons ranHere ranLater =>
      cases ranToo with
      | cons ranHereToo ranLaterToo =>
        have rest := ih ranLater ranLaterToo
        obtain ⟨piece, same, longer⟩ := rewriteSegment_padded whiteLead whiteTrail ranHere
        cases ranHereToo.symm.trans same
        simp only [List.map_cons, List.sum_cons, List.length_append]
        omega

/-- Whitespace around a path adds at least its own length to what is sent. -/
theorem resolves_padded {others : List Char} (whiteLead : White lead) (whiteTrail : White trail)
    (resolves : Resolves resolver path sent) (padded : Resolves resolver (lead ++ (path ++ trail)) others) :
    sent.length + (lead.length + trail.length) ≤ others.length := by
  have same := hasPlaceholder_padded whiteLead whiteTrail path
  rcases resolves_cases resolves with ⟨plain, rfl⟩ | ⟨placeholder, pieces, each, rfl⟩
  · rcases resolves_cases padded with ⟨_, rfl⟩ | ⟨placeholder, _⟩
    · simp only [List.length_append]
      omega
    · rw [same, plain] at placeholder
      cases placeholder
  · rcases resolves_cases padded with ⟨plain, _⟩ | ⟨_, paddedPieces, paddedEach, rfl⟩
    · rw [same, placeholder] at plain
      cases plain
    · have sums := padded_pieces (split_padded whiteLead whiteTrail path) each paddedEach
      have filled := ne_nil_of_forall₂ each split_ne_nil
      have filledToo := ne_nil_of_forall₂ paddedEach split_ne_nil
      have one := @length_join '/' (pieces.map (·.resolved)) (by simpa using filled)
      have two := @length_join '/' (paddedPieces.map (·.resolved)) (by simpa using filledToo)
      have three := @length_join '/' _ (@split_ne_nil '/' path)
      have four := @length_join '/' _ (@split_ne_nil '/' (lead ++ (path ++ trail)))
      rw [join_split] at three four
      rw [List.map_map] at one two
      simp only [List.length_append] at four
      simp only [Function.comp_def] at one two
      omega

theorem rewriteSegment_resolved {segment : List Char} {piece : RewrittenPiece}
    (ran : rewriteSegment resolver segment = .ok piece) :
    piece.resolved = segment ∨ ∃ text, piece.resolved = percentEncodePathSegment text := by
  unfold rewriteSegment at ran
  simp only at ran
  split at ran
  · cases ran
    exact .inl rfl
  · obtain ⟨⟨resolved, redacted⟩, _, ran⟩ := ok_of_bind ran
    cases ran
    exact .inr ⟨resolved, rfl⟩

/-- What the encoding never writes is in the path that is sent only if it was in the path. -/
theorem mem_of_resolves {c : Char} (never : ∀ text, c ∉ percentEncodePathSegment text) (other : c ≠ '/')
    (resolves : Resolves resolver path sent) (member : c ∈ sent) : c ∈ path := by
  rcases resolves_cases resolves with ⟨_, rfl⟩ | ⟨_, pieces, each, rfl⟩
  · exact member
  · rcases mem_join member with same | ⟨text, inside, holds⟩
    · exact absurd same other
    · obtain ⟨piece, pieceIn, rfl⟩ := List.mem_map.mp inside
      obtain ⟨segment, segmentIn, ran⟩ := exists_of_forall₂ each pieceIn
      rcases rewriteSegment_resolved ran with same | ⟨text, same⟩
      · rw [same] at holds
        exact (infix_of_mem_split segmentIn).subset holds
      · rw [same] at holds
        exact absurd holds (never text)

theorem white_of_resolves {c : Char} (white : isWhitespace c = true) (resolves : Resolves resolver path sent)
    (member : c ∈ sent) : c ∈ path := by
  apply mem_of_resolves _ _ resolves member
  · intro text held
    have plain := plain_percentEncode (fun d stays => white_of_segment stays) text c held
    rw [white] at plain
    cases plain
  · rintro rfl
    revert white
    decide

theorem query_notMem_of_resolves (absent : '?' ∉ path) (resolves : Resolves resolver path sent) : '?' ∉ sent := by
  intro member
  apply absent
  apply mem_of_resolves _ (by decide) resolves member
  intro text
  exact notMem_percentEncode (by decide) (by decide) text

theorem count_slash_of_resolves (resolves : Resolves resolver path sent) : sent.count '/' = path.count '/' := by
  rcases resolves_cases resolves with ⟨_, rfl⟩ | ⟨_, pieces, each, rfl⟩
  · rfl
  · have segments := each.length_eq
    have sentLength := @length_split '/' (join ['/'] (pieces.map (·.resolved)))
    have pathLength := @length_split '/' path
    have cut : split '/' (join ['/'] (pieces.map (·.resolved))) = pieces.map (·.resolved) := by
      apply split_pieces each split_ne_nil
      intro segment segmentIn piece ran
      exact (rewriteSegment_spec (notMem_of_mem_split segmentIn) ran).1
    rw [cut, List.length_map] at sentLength
    omega

end Paths

/-! The query with its credentials. -/

/-- The gateway hands out credentials under such names only. -/
def isValidEnvKey : List Char → Bool
  | [] => false
  | first :: key => (first = '_' || first.isAlpha) && key.all isEnvKeyChar

def SecretResolver.Named (resolver : SecretResolver) : Prop :=
  ∀ entry ∈ resolver.byPlaceholder, ∃ key, entry.1 = placeholderForEnvKey key ∧ isValidEnvKey key = true

def QueryResolves (resolver : SecretResolver) (query sent : List Char) : Prop :=
  ∃ rewritten, rewriteUriQueryParams resolver query = .ok rewritten ∧ sent = (rewritten.getD (query, query)).1

section Queries

variable {resolver : SecretResolver} {query sent param : List Char}

theorem plain_of_named (named : resolver.Named) {value secret : List Char}
    (resolved : resolver.resolvePlaceholder value = some secret) : Plain value := by
  obtain ⟨key, same, valid⟩ := named (value, secret) (mem_of_resolved resolved).1
  have keyChars : ∀ c ∈ key, isEnvKeyChar c = true := by
    cases key with
    | nil => cases valid
    | cons first key =>
      simp only [isValidEnvKey, Bool.and_eq_true, Bool.or_eq_true, decide_eq_true_eq, List.all_eq_true] at valid
      intro c inside
      rcases List.mem_cons.mp inside with here | later
      · rw [here, isEnvKeyChar, Bool.or_eq_true, decide_eq_true_eq]
        rcases valid.1 with underscore | alpha
        · exact .inr underscore
        · left
          simp [Char.isAlphanum, alpha]
      · exact valid.2 c later
  intro c inside
  rw [show value = placeholderPrefix ++ key from same, List.mem_append] at inside
  rcases inside with inPrefix | inKey
  · exact plain_placeholderPrefix c inPrefix
  · exact white_of_envKey (keyChars c inKey)

theorem rewriteParam_cases {piece : RewrittenPiece} (ran : rewriteParam resolver param = .ok piece) :
    piece = ⟨param, param, false⟩ ∨ (piece.rewritten = true ∧ ∃ key value secret, param = key ++ '=' :: value ∧
      resolver.resolvePlaceholder (percentDecode value) = some secret ∧
      piece.resolved = key ++ '=' :: percentEncodeQuery secret) := by
  unfold rewriteParam at ran
  split at ran
  · cases ran
    exact .inl rfl
  · rename_i key value found
    simp only at ran
    split at ran
    · rename_i secret resolved
      cases ran
      exact .inr ⟨rfl, key, value, secret, (splitOnce_eq_some found).1, resolved, rfl⟩
    · split at ran
      · cases ran
      · cases ran
        exact .inl rfl

theorem rewriteParam_untouched {piece : RewrittenPiece} (ran : rewriteParam resolver param = .ok piece)
    (untouched : piece.rewritten = false) : piece = ⟨param, param, false⟩ := by
  rcases rewriteParam_cases ran with same | ⟨touched, _⟩
  · exact same
  · rw [touched] at untouched
    cases untouched

theorem queryResolves_cases (resolves : QueryResolves resolver query sent) :
    sent = query ∨ ∃ pieces,
      List.Forall₂ (fun param piece => rewriteParam resolver param = .ok piece) (split '&' query) pieces ∧
      sent = join ['&'] (pieces.map (·.resolved)) := by
  obtain ⟨rewritten, ran, same⟩ := resolves
  unfold rewriteUriQueryParams at ran
  split at ran
  · cases ran
    exact .inl same
  · obtain ⟨pieces, mapped, ran⟩ := ok_of_bind ran
    cases ran
    have each := forall₂_of_mapM mapped
    have joined := @joinPieces_getD (rewriteParam resolver) '&' _ _ (fun _ _ => rewriteParam_untouched) each
    rw [join_split] at joined
    rw [joined] at same
    exact .inr ⟨pieces, each, same⟩

theorem white_of_queryResolves {c : Char} (white : isWhitespace c = true)
    (resolves : QueryResolves resolver query sent) (member : c ∈ sent) : c ∈ query := by
  have other : ∀ d, isWhitespace d = false → c ≠ d := by
    rintro d plain rfl
    rw [white] at plain
    cases plain
  rcases queryResolves_cases resolves with rfl | ⟨pieces, each, rfl⟩
  · exact member
  · rcases mem_join member with same | ⟨text, inside, holds⟩
    · exact absurd same (other '&' (by decide))
    · obtain ⟨piece, pieceIn, rfl⟩ := List.mem_map.mp inside
      obtain ⟨param, paramIn, ran⟩ := exists_of_forall₂ each pieceIn
      apply (infix_of_mem_split paramIn).subset
      rcases rewriteParam_cases ran with same | ⟨_, key, value, secret, split, _, same⟩
      · rw [same] at holds
        exact holds
      · rw [same, List.mem_append, List.mem_cons] at holds
        rcases holds with inKey | equals | encoded
        · rw [split]
          exact List.mem_append_left _ inKey
        · exact absurd equals (other '=' (by decide))
        · have plain := plain_percentEncode (fun d stays => white_of_unreserved stays) secret c encoded
          exact absurd rfl (other c plain)

/-- Whitespace in the query is in what is sent for it, or no credential has the placeholder. -/
theorem plain_query (named : resolver.Named) (resolves : QueryResolves resolver query sent) (plain : Plain sent) :
    Plain query := by
  rcases queryResolves_cases resolves with rfl | ⟨pieces, each, rfl⟩
  · exact plain
  · intro c member
    rw [← @join_split '&' query] at member
    rcases mem_join member with rfl | ⟨param, paramIn, holds⟩
    · decide
    · obtain ⟨piece, pieceIn, ran⟩ := exists_of_forall₂ each.flip paramIn
      have within : ∀ d ∈ piece.resolved, isWhitespace d = false := by
        intro d inside
        apply plain d
        exact (infix_join (List.mem_map.mpr ⟨piece, pieceIn, rfl⟩)).subset inside
      rcases rewriteParam_cases ran with same | ⟨_, key, value, secret, split, resolved, same⟩
      · rw [same] at within
        exact within c holds
      · rw [split, List.mem_append, List.mem_cons] at holds
        rw [same] at within
        rcases holds with inKey | equals | inValue
        · exact within c (List.mem_append_left _ inKey)
        · rw [equals]
          decide
        · by_contra white
          rw [Bool.not_eq_false] at white
          have decoded := plain_of_named named resolved c (mem_percentDecode white inValue)
          rw [white] at decoded
          cases decoded

end Queries

end OpenShell.Sandbox
