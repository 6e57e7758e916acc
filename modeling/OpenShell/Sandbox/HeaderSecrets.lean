import OpenShell.Sandbox.HeaderLines

namespace OpenShell.Sandbox

open Text Results

/-! What is put in a header line, told from the line and the secrets. -/

section Definitions

/-- The text with these placeholders replaced by their secrets, one after the other. -/
def withSecrets (entries : List (List Char × List Char)) (text : List Char) : List Char :=
  entries.foldl (fun text entry => replace entry.1 entry.2 text) text

/-- A placeholder that is found when its turn comes has a secret that is allowed. -/
def AllAllowed (entries : List (List Char × List Char)) (text : List Char) : Prop :=
  ∀ before placeholder secret after, entries = before ++ (placeholder, secret) :: after →
    contains (withSecrets before text) placeholder = true → (validateResolvedSecret secret).isOk = true

variable (base64 : Base64) (resolver : SecretResolver)

/-- The value is a word, whitespace, and a known placeholder. -/
def WordBefore (value word secret : List Char) : Prop :=
  ∃ c candidate, trim value = word ++ c :: candidate ∧ Plain word ∧ isWhitespace c = true ∧
    resolver.resolvePlaceholder (trim candidate) = some secret

/-- The token of the value is decoded to a text with placeholders, and their secrets change it. -/
structure TokenFilled (value text : List Char) : Prop where
  textOf : basicText base64 value = some text
  placeholder : hasPlaceholder text = true
  allowed : AllAllowed resolver.byPlaceholder text
  changes : withSecrets resolver.byPlaceholder text ≠ text

/-- What is put in a header line, and what stands before it: the secret of a value that is a placeholder, a token
with its placeholders replaced, or the secret of a placeholder behind a word. -/
inductive PutIn : List Char → List Char → List Char → Prop
  | alone {name value secret : List Char} (absent : ':' ∉ name)
      (known : resolver.resolvePlaceholder (trim value) = some secret) :
      PutIn (name ++ ':' :: value) (name ++ ": ".toList) secret
  | token {name value text : List Char} (absent : ':' ∉ name)
      (unknown : resolver.resolvePlaceholder (trim value) = none) (filled : TokenFilled base64 resolver value text) :
      PutIn (name ++ ':' :: value) (name ++ ": Basic ".toList)
        (base64.encode (utf8Encode (withSecrets resolver.byPlaceholder text)))
  | behind {name value word secret : List Char} (absent : ':' ∉ name)
      (unknown : resolver.resolvePlaceholder (trim value) = none)
      (unfilled : ∀ text, ¬ TokenFilled base64 resolver value text) (before : WordBefore resolver value word secret) :
      PutIn (name ++ ':' :: value) (name ++ ": ".toList ++ word ++ [' ']) secret

/-- A placeholder ends within the first bytes of the text. -/
def PlaceholderBy (text : List Char) (bytes : Nat) : Prop :=
  ∃ before after, text = before ++ (placeholderPrefix ++ after) ∧
    (utf8Encode (before ++ placeholderPrefix)).length ≤ bytes

/-- A placeholder stays within the first bytes that are sent for a header line: in what is put in it or before that, or
in a line that nothing is put in. -/
inductive StaysBy (line : List Char) (bytes : Nat) : Prop
  | put {lead text : List Char} (put : PutIn base64 resolver line lead text)
      (stays : PlaceholderBy lead bytes ∨ PlaceholderBy text (bytes - (utf8Encode lead).length))
  | plain (plain : ∀ lead text, ¬ PutIn base64 resolver line lead text) (stays : PlaceholderBy line bytes)

/-- The bytes that are sent for a header line. -/
inductive Takes (line : List Char) : Nat → Prop
  | put {lead text : List Char} (put : PutIn base64 resolver line lead text) :
      Takes line ((utf8Encode lead).length + (utf8Encode text).length)
  | plain (plain : ∀ lead text, ¬ PutIn base64 resolver line lead text) : Takes line (utf8Encode line).length

end Definitions

section Replacing

variable {text : List Char}

theorem replacePlaceholders_eq_some_iff {entries : List (List Char × List Char)} {rewritten : List Char} :
    replacePlaceholders text entries = some rewritten ↔
      AllAllowed entries text ∧ rewritten = withSecrets entries text := by
  induction entries generalizing text with
  | nil =>
    have nothing : AllAllowed [] text := by
      intro before placeholder secret after same
      simp at same
    rw [replacePlaceholders, Option.some.injEq]
    constructor
    · rintro rfl
      exact ⟨nothing, rfl⟩
    · rintro ⟨_, rfl⟩
      rfl
  | cons entry entries ih =>
    obtain ⟨placeholder, secret⟩ := entry
    -- The first entry is checked on the text itself, the later ones on the text with its secret.
    have cut : AllAllowed ((placeholder, secret) :: entries) text ↔
        (contains text placeholder = true → (validateResolvedSecret secret).isOk = true) ∧
          AllAllowed entries (replace placeholder secret text) := by
      constructor
      · intro allowed
        refine ⟨fun found => allowed [] placeholder secret entries rfl found, ?_⟩
        intro before other otherSecret after same found
        exact allowed ((placeholder, secret) :: before) other otherSecret after (by rw [same]; rfl) found
      · rintro ⟨here, later⟩ before other otherSecret after same found
        cases before with
        | nil =>
          rw [List.nil_append, List.cons.injEq, Prod.mk.injEq] at same
          obtain ⟨⟨rfl, rfl⟩, _⟩ := same
          exact here found
        | cons first before =>
          rw [List.cons_append, List.cons.injEq] at same
          obtain ⟨rfl, same⟩ := same
          exact later before other otherSecret after same found
    rw [cut, replacePlaceholders]
    cases found : contains text placeholder with
    | true =>
      rw [if_pos rfl]
      cases checked : validateResolvedSecret secret with
      | error problem => simp [Except.isOk, Except.toBool]
      | ok allowed =>
        rw [(validateResolvedSecret_ok checked).1]
        simp only
        rw [ih]
        simp [Except.isOk, Except.toBool, withSecrets]
    | false =>
      have kept : replace placeholder secret text = text := by
        apply replace_absent
        rw [← contains_iff_isInfixOf, found]
        exact Bool.false_ne_true
      rw [if_neg Bool.false_ne_true, ih, kept]
      simp only [Bool.false_eq_true, false_implies, true_and, withSecrets, List.foldl_cons, kept]

end Replacing

section Lines

variable {base64 : Base64} {resolver : SecretResolver} {line value lead text word secret : List Char}

theorem basicRewritten_iff {rewritten : List Char} : basicRewritten base64 resolver value = some rewritten ↔
    ∃ text, TokenFilled base64 resolver value text ∧ rewritten = withSecrets resolver.byPlaceholder text := by
  unfold basicRewritten
  constructor
  · intro ran
    obtain ⟨text, textOf, ran⟩ := Option.bind_eq_some_iff.mp ran
    split at ran
    · cases ran
    · rename_i placeholder
      obtain ⟨replaced, same, ran⟩ := Option.bind_eq_some_iff.mp ran
      obtain ⟨allowed, rfl⟩ := replacePlaceholders_eq_some_iff.mp same
      split at ran
      · cases ran
      · rename_i changes
        cases ran
        exact ⟨text, ⟨textOf, by simpa using placeholder, allowed, changes⟩, rfl⟩
  · rintro ⟨text, filled, rfl⟩
    have replaced := replacePlaceholders_eq_some_iff.mpr ⟨filled.allowed, rfl⟩
    simp only [filled.textOf, bind, Option.bind_some, filled.placeholder, Bool.not_true, Bool.false_eq_true, if_false,
      replaced, filled.changes]

theorem prefixedSecret_iff :
    prefixedSecret resolver value = some (word, secret) ↔ WordBefore resolver value word secret := by
  unfold prefixedSecret
  constructor
  · intro ran
    obtain ⟨splitAt, found, ran⟩ := Option.bind_eq_some_iff.mp ran
    obtain ⟨held, resolved, ran⟩ := Option.bind_eq_some_iff.mp ran
    cases ran
    obtain ⟨bound, white, earlier⟩ := List.findIdx?_eq_some_iff_getElem.mp found
    have behind : (trim value).drop splitAt = (trim value)[splitAt] :: (trim value).drop (splitAt + 1) :=
      List.drop_eq_getElem_cons bound
    refine ⟨(trim value)[splitAt], (trim value).drop (splitAt + 1), ?_, ?_, white, ?_⟩
    · rw [← behind, List.take_append_drop]
    · intro c member
      obtain ⟨index, inside, same⟩ := List.mem_take_iff_getElem.mp member
      have plain := earlier index (by omega)
      rw [same] at plain
      simpa using plain
    · rw [behind, trim_white white] at resolved
      exact resolved
  · rintro ⟨c, candidate, cut, plain, white, resolved⟩
    have found : (trim value).findIdx? isWhitespace = some word.length := by
      rw [cut, List.findIdx?_append, List.findIdx?_eq_none_iff.mpr plain, List.findIdx?_cons, if_pos white]
      simp
    rw [found]
    simp only [bind, Option.bind_some]
    rw [cut, List.drop_left, trim_white white, resolved, List.take_left]
    rfl

theorem PutIn.sent (put : PutIn base64 resolver line lead text) : ∃ name value rewritten,
    splitOnce ':' line = some (name, value) ∧ resolver.rewriteHeaderValue base64 (trim value) = some rewritten ∧
      name ++ ": ".toList ++ rewritten = lead ++ text := by
  cases put with
  | @alone name value secret absent known =>
    refine ⟨name, value, text, splitOnce_append absent value, ?_, rfl⟩
    rw [rewriteHeaderValue_eq, trim_trim, known, Option.some_or]
  | @token name value text absent unknown filled =>
    have token := basicRewritten_iff.mpr ⟨text, filled, rfl⟩
    refine ⟨name, value, "Basic ".toList ++ base64.encode (utf8Encode (withSecrets resolver.byPlaceholder text)),
      splitOnce_append absent value, ?_, by simp⟩
    rw [rewriteHeaderValue_eq, trim_trim, unknown, basicRewritten_trim, token]
    rfl
  | @behind name value word secret absent unknown unfilled before =>
    have unread : basicRewritten base64 resolver value = none := by
      cases ran : basicRewritten base64 resolver value with
      | none => rfl
      | some rewritten =>
        obtain ⟨text, filled, _⟩ := basicRewritten_iff.mp ran
        exact absurd filled (unfilled text)
    refine ⟨name, value, word ++ ' ' :: text, splitOnce_append absent value, ?_, ?_⟩
    · rw [rewriteHeaderValue_eq, trim_trim, unknown, basicRewritten_trim, unread, prefixedSecret_trim,
        prefixedSecret_iff.mpr before]
      rfl
    · simp

/-- A line is sent with what is put in it, and as it is where nothing is. -/
theorem rewriteHeaderLine_cases (base64 : Base64) (resolver : SecretResolver) (line : List Char) :
    (∃ lead text, PutIn base64 resolver line lead text ∧ rewriteHeaderLine base64 resolver line = lead ++ text) ∨
      (∀ lead text, ¬ PutIn base64 resolver line lead text) ∧ rewriteHeaderLine base64 resolver line = line := by
  unfold rewriteHeaderLine
  cases cut : splitOnce ':' line with
  | none =>
    right
    refine ⟨?_, rfl⟩
    intro lead text put
    obtain ⟨_, _, _, found, _⟩ := put.sent
    rw [cut] at found
    cases found
  | some parts =>
    obtain ⟨name, value⟩ := parts
    obtain ⟨rfl, absent⟩ := splitOnce_eq_some cut
    simp only
    cases ran : resolver.rewriteHeaderValue base64 (trim value) with
    | none =>
      right
      refine ⟨?_, rfl⟩
      intro lead text put
      obtain ⟨_, _, _, found, rewritten, _⟩ := put.sent
      rw [cut] at found
      cases found
      rw [ran] at rewritten
      cases rewritten
    | some rewritten =>
      left
      suffices ∃ lead text, PutIn base64 resolver (name ++ ':' :: value) lead text by
        obtain ⟨lead, text, put⟩ := this
        obtain ⟨_, _, _, found, sameValue, same⟩ := put.sent
        rw [cut] at found
        cases found
        rw [ran] at sameValue
        cases sameValue
        exact ⟨lead, text, put, same⟩
      cases known : resolver.resolvePlaceholder (trim value) with
      | some secret => exact ⟨_, _, .alone absent known⟩
      | none =>
        by_cases filled : ∃ text, TokenFilled base64 resolver value text
        · obtain ⟨text, filled⟩ := filled
          exact ⟨_, _, .token absent known filled⟩
        · rcases rewriteHeaderValue_cases ran with direct | ⟨text, basic, _⟩ | ⟨parts, prefixed, _⟩
          · rw [trim_trim, known] at direct
            cases direct
          · rw [basicRewritten_trim] at basic
            obtain ⟨text, here, _⟩ := basicRewritten_iff.mp basic
            exact absurd ⟨text, here⟩ filled
          · rw [prefixedSecret_trim] at prefixed
            exact ⟨_, _, .behind absent known (not_exists.mp filled) (prefixedSecret_iff.mp prefixed)⟩

theorem takes_iff {bytes : Nat} : Takes base64 resolver line bytes ↔
    bytes = (utf8Encode (rewriteHeaderLine base64 resolver line)).length := by
  have length : ∀ lead text : List Char, (utf8Encode (lead ++ text)).length =
      (utf8Encode lead).length + (utf8Encode text).length := by
    intro lead text
    rw [utf8Encode_append, List.length_append]
  constructor
  · intro takes
    cases takes with
    | @put lead text put =>
      obtain ⟨_, _, _, found, ran, same⟩ := put.sent
      unfold rewriteHeaderLine
      rw [found]
      simp only [ran]
      rw [same, length]
    | plain plain =>
      rcases rewriteHeaderLine_cases base64 resolver line with ⟨lead, text, put, _⟩ | ⟨_, same⟩
      · exact absurd put (plain lead text)
      · rw [same]
  · rintro rfl
    rcases rewriteHeaderLine_cases base64 resolver line with ⟨lead, text, put, same⟩ | ⟨plain, same⟩
    · rw [same, length]
      exact .put put
    · rw [same]
      exact .plain plain

end Lines

def withBreaks (lines : List (List Char)) : List Char := lines.flatMap (· ++ crlfText)

/-! Where a placeholder stands in what is sent. -/

section Places

variable {base64 : Base64} {resolver : SecretResolver} {line lead text first rest : List Char} {bytes : Nat}

theorem placeholderBy_cons {separator : Char} (apart : separator ∉ placeholderPrefix) :
    PlaceholderBy (first ++ separator :: rest) bytes ↔
      PlaceholderBy first bytes ∨ PlaceholderBy rest (bytes - (utf8Encode (first ++ [separator])).length) := by
  have filled : 0 < (utf8Encode placeholderPrefix).length := by decide
  constructor
  · rintro ⟨before, after, same, bound⟩
    rcases append_cons_cut apart same.symm with ⟨later, inFirst⟩ | ⟨crossing, beforeIs, inRest⟩
    · exact .inl ⟨before, later, inFirst, bound⟩
    · refine .inr ⟨crossing, after, inRest, ?_⟩
      rw [beforeIs, show first ++ separator :: crossing ++ placeholderPrefix =
        (first ++ [separator]) ++ (crossing ++ placeholderPrefix) by simp, utf8Encode_append,
        List.length_append] at bound
      omega
  · rintro (⟨before, later, rfl, bound⟩ | ⟨crossing, after, rfl, bound⟩)
    · exact ⟨before, later ++ separator :: rest, by simp, bound⟩
    · refine ⟨first ++ separator :: crossing, after, by simp, ?_⟩
      have longer : (utf8Encode placeholderPrefix).length ≤ (utf8Encode (crossing ++ placeholderPrefix)).length := by
        rw [utf8Encode_append, List.length_append]
        omega
      rw [show first ++ separator :: crossing ++ placeholderPrefix =
        (first ++ [separator]) ++ (crossing ++ placeholderPrefix) by simp, utf8Encode_append, List.length_append]
      omega

theorem hasPlaceholder_iff_by : hasPlaceholder text = true ↔ ∃ bytes, PlaceholderBy text bytes := by
  rw [hasPlaceholder_iff]
  constructor
  · rintro ⟨before, after, same⟩
    exact ⟨_, before, after, by rw [← same, List.append_assoc], le_refl _⟩
  · rintro ⟨_, before, after, same, _⟩
    exact ⟨before, after, by rw [same, List.append_assoc]⟩

theorem hasPlaceholder_break (line rest : List Char) :
    hasPlaceholder (line ++ (crlfText ++ rest)) = true ↔ hasPlaceholder line = true ∨ hasPlaceholder rest = true := by
  rw [hasPlaceholder_iff, hasPlaceholder_iff, hasPlaceholder_iff]
  constructor
  · intro found
    rcases infix_append_cons (by decide : '\r' ∉ placeholderPrefix) found with here | behind
    · exact .inl here
    · rcases infix_append_cons (by decide : '\n' ∉ placeholderPrefix)
        (show placeholderPrefix <:+: [] ++ '\n' :: rest from behind) with nowhere | later
      · rw [List.infix_nil] at nowhere
        cases nowhere
      · exact .inr later
  · rintro (here | behind)
    · exact here.trans (List.prefix_append _ _).isInfix
    · rw [← List.append_assoc]
      exact behind.trans (List.suffix_append _ _).isInfix

theorem hasPlaceholder_withBreaks (lines : List (List Char)) (rest : List Char) :
    hasPlaceholder (withBreaks lines ++ (crlfText ++ rest)) = true ↔
      (∃ line ∈ lines, hasPlaceholder line = true) ∨ hasPlaceholder rest = true := by
  induction lines with
  | nil =>
    have none : hasPlaceholder [] = false := by decide
    have cut := hasPlaceholder_break [] rest
    rw [none] at cut
    simpa [withBreaks] using cut
  | cons line lines ih =>
    have step : withBreaks (line :: lines) ++ (crlfText ++ rest) =
        line ++ (crlfText ++ (withBreaks lines ++ (crlfText ++ rest))) := by
      simp only [withBreaks, List.flatMap_cons, List.append_assoc]
    rw [step, hasPlaceholder_break, ih, List.exists_mem_cons_iff, or_assoc]

/-- What is put in a line stands behind a space. -/
theorem PutIn.space (put : PutIn base64 resolver line lead text) : ∃ before, lead = before ++ [' '] := by
  cases put with
  | @alone name => exact ⟨name ++ [':'], by simp⟩
  | @token name => exact ⟨name ++ ": Basic".toList, by simp⟩
  | @behind name value word => exact ⟨name ++ ": ".toList ++ word, by simp⟩

theorem placeholderBy_put (put : PutIn base64 resolver line lead text) : PlaceholderBy (lead ++ text) bytes ↔
    PlaceholderBy lead bytes ∨ PlaceholderBy text (bytes - (utf8Encode lead).length) := by
  have apart : ' ' ∉ placeholderPrefix := by decide
  obtain ⟨before, rfl⟩ := put.space
  have nothing : ∀ bytes, ¬ PlaceholderBy [] bytes := by
    rintro bytes ⟨lead, after, same, _⟩
    have total := congrArg List.length same
    rw [List.length_append, List.length_append, show placeholderPrefix.length = 22 from rfl, List.length_nil] at total
    omega
  rw [List.append_assoc, List.singleton_append, placeholderBy_cons apart, placeholderBy_cons apart,
    or_iff_left (nothing _)]

theorem staysBy_iff : StaysBy base64 resolver line bytes ↔
    PlaceholderBy (rewriteHeaderLine base64 resolver line) bytes := by
  rcases rewriteHeaderLine_cases base64 resolver line with ⟨lead, text, put, same⟩ | ⟨plain, same⟩
  · rw [same]
    constructor
    · intro stays
      cases stays with
      | @put other otherText putToo stays =>
        obtain ⟨_, _, _, found, ran, sameToo⟩ := putToo.sent
        unfold rewriteHeaderLine at same
        rw [found] at same
        simp only [ran] at same
        rw [← same, sameToo, placeholderBy_put putToo]
        exact stays
      | plain plain => exact absurd put (plain lead text)
    · intro stays
      exact .put put ((placeholderBy_put put).mp stays)
  · rw [same]
    constructor
    · intro stays
      cases stays with
      | @put lead text put => exact absurd put (plain lead text)
      | plain _ stays => exact stays
    · exact .plain plain

theorem stays_iff : (∃ bytes, StaysBy base64 resolver line bytes) ↔
    hasPlaceholder (rewriteHeaderLine base64 resolver line) = true := by
  rw [hasPlaceholder_iff_by]
  exact exists_congr fun _ => staysBy_iff

end Places

end OpenShell.Sandbox
