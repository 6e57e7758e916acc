import OpenShell.Sandbox.BasicAuth

namespace OpenShell.Sandbox

open Text Results

/-! What is made of a token for Basic authentication, whatever the order of the placeholders. -/

section Definitions

variable (resolver : SecretResolver)

def AllKnown (text : List Char) : Prop :=
  ∀ key, .placeholder key ∈ scan text → resolver.Knows (placeholderForEnvKey key)

/-- Every placeholder of the text is known, or else the token is left as it is: for a secret that is not allowed,
    or because the secrets put in do not change the text. -/
def AllOrNone (text : List Char) : Prop :=
  AllKnown resolver text ∨ resolver.byPlaceholder.any (rejects (scan text)) = true ∨
    partly resolver (resolver.byPlaceholder.map Prod.fst) (scan text) = text

end Definitions

/-- What is made of a token does not depend on the order of the map, and is its text with every placeholder
    replaced by the secret of exactly its key. -/
structure BasicExact (base64 : Base64) (resolver : SecretResolver) (token : List Char) : Prop where
  orderFree : ∀ other : SecretResolver, other.byPlaceholder.Perm resolver.byPlaceholder →
    other.rewriteBasicAuthToken base64 token = resolver.rewriteBasicAuthToken base64 token
  exact : ∀ rewritten, resolver.rewriteBasicAuthToken base64 token = some rewritten → ∃ text,
    tokenText base64 token = some text ∧ AllKnown resolver text ∧
      tokenText base64 rewritten =
        some (filled (fun key => resolver.heldSecret (placeholderForEnvKey key)) (scan text))

section Tokens

variable {base64 : Base64} {resolver : SecretResolver} {token text : List Char}

theorem rewriteBasicAuthToken_of_text (textOf : tokenText base64 token = some text) (other : SecretResolver) :
    other.rewriteBasicAuthToken base64 token =
      if hasPlaceholder text then (replacePlaceholders text other.byPlaceholder).bind fun rewritten =>
        if rewritten = text then none else some (base64.encode (utf8Encode rewritten))
      else none := by
  unfold tokenText at textOf
  obtain ⟨bytes, decoded, read⟩ := Option.bind_eq_some_iff.mp textOf
  unfold SecretResolver.rewriteBasicAuthToken
  rw [decoded]
  simp only [bind, Option.bind_some, read]
  cases hasPlaceholder text <;> rfl

theorem rewriteBasicAuthToken_unread (unread : tokenText base64 token = none) (other : SecretResolver) :
    other.rewriteBasicAuthToken base64 token = none := by
  unfold tokenText at unread
  unfold SecretResolver.rewriteBasicAuthToken
  cases decoded : base64.decode (trim token) with
  | none => rfl
  | some bytes =>
    rw [decoded, Option.bind_some] at unread
    simp only [bind, Option.bind_some, unread, Option.bind_none]

/-- What is made of a token, whatever the order of the entries. -/
theorem rewriteBasicAuthToken_apart (textOf : tokenText base64 token = some text) (apart : KeptApart resolver text)
    {other : SecretResolver} (perm : other.byPlaceholder.Perm resolver.byPlaceholder) :
    other.rewriteBasicAuthToken base64 token =
      if hasPlaceholder text = true ∧ resolver.byPlaceholder.any (rejects (scan text)) = false ∧
          partly resolver (resolver.byPlaceholder.map Prod.fst) (scan text) ≠ text then
        some (base64.encode (utf8Encode (partly resolver (resolver.byPlaceholder.map Prod.fst) (scan text))))
      else none := by
  rw [rewriteBasicAuthToken_of_text textOf, replacePlaceholders_all apart perm]
  cases hasPlaceholder text with
  | false => rfl
  | true =>
    cases resolver.byPlaceholder.any (rejects (scan text)) with
    | true => rfl
    | false =>
      by_cases same : partly resolver (resolver.byPlaceholder.map Prod.fst) (scan text) = text
      · simp [same]
      · simp [same]

theorem tokenText_encoded (standard : base64.Standard) (text : List Char) :
    tokenText base64 (base64.encode (utf8Encode text)) = some text := by
  have plain : Plain (base64.encode (utf8Encode text)) :=
    fun c member => white_of_base64 (standard.alphabet _ c member)
  unfold tokenText
  rw [trim_of_plain plain, standard.inverse, Option.bind_some, utf8Decode_encode]

/-- For a token whose placeholders are kept apart. -/
theorem basicExact_of_apart (base64 : Base64) (standard : base64.Standard) (resolver : SecretResolver)
    (token : List Char) (apart : ∀ text, tokenText base64 token = some text → KeptApart resolver text) :
    BasicExact base64 resolver token ↔
      ∀ text, tokenText base64 token = some text → hasPlaceholder text = true → AllOrNone resolver text := by
  cases textOf : tokenText base64 token with
  | none =>
    have unread := rewriteBasicAuthToken_unread textOf
    constructor
    · intro _ text same
      cases same
    · intro _
      constructor
      · intro other _
        rw [unread, unread]
      · intro rewritten ran
        rw [unread] at ran
        cases ran
  | some text =>
    have ran_eq := fun {other : SecretResolver} => @rewriteBasicAuthToken_apart base64 resolver token text textOf
      (apart text textOf) other
    simp only [Option.some.injEq, forall_eq']
    constructor
    · intro holds placeholder
      by_cases rejected : resolver.byPlaceholder.any (rejects (scan text)) = true
      · exact .inr (.inl rejected)
      · by_cases same : partly resolver (resolver.byPlaceholder.map Prod.fst) (scan text) = text
        · exact .inr (.inr same)
        · have ran := ran_eq (List.Perm.refl resolver.byPlaceholder)
          rw [if_pos ⟨placeholder, Bool.eq_false_iff.mpr rejected, same⟩] at ran
          obtain ⟨held, sameText, known, _⟩ := holds.exact _ ran
          rw [textOf] at sameText
          cases sameText
          exact .inl known
    · intro settled
      constructor
      · intro other perm
        rw [ran_eq perm, ran_eq (List.Perm.refl resolver.byPlaceholder)]
      · intro rewritten ran
        rw [ran_eq (List.Perm.refl resolver.byPlaceholder)] at ran
        obtain ⟨⟨placeholder, allowed, changed⟩, made⟩ := Option.ite_none_right_eq_some.mp ran
        cases made
        rcases settled placeholder with known | rejected | same
        · refine ⟨text, textOf, known, ?_⟩
          rw [tokenText_encoded standard, partly_all known]
        · rw [rejected] at allowed
          cases allowed
        · exact absurd same changed

/-- As long as its placeholders are kept apart, what is made of a token is free of the order and exact if and only if
    all or none of them are replaced; and they are kept apart unless in some order one is found in a wrong place. -/
theorem basicExact_iff (base64 : Base64) (standard : base64.Standard) (resolver : SecretResolver) (token : List Char) :
    ((∀ text, tokenText base64 token = some text → KeptApart resolver text) →
      (BasicExact base64 resolver token ↔
        ∀ text, tokenText base64 token = some text → hasPlaceholder text = true → AllOrNone resolver text)) ∧
    ∀ text, tokenText base64 token = some text → (KeptApart resolver text ↔
      ∀ order : List (List Char × List Char), order.Perm resolver.byPlaceholder → ¬ Strays resolver order text) :=
  ⟨basicExact_of_apart base64 standard resolver token, fun _ _ => keptApart_iff⟩

end Tokens

section Example

/-- Two keys of which one begins with the other, in either order. -/
def twoKeys : List (List Char × List Char) :=
  [(placeholderForEnvKey "KEY".toList, "a".toList), (placeholderForEnvKey "KEY_2".toList, "b".toList)]

def twoKeyResolver : SecretResolver where
  byPlaceholder := twoKeys
  distinct := by decide
  placeholders := by
    simp only [twoKeys, List.forall_mem_cons]
    exact ⟨⟨_, rfl⟩, ⟨_, rfl⟩, by simp⟩

def otherKeyResolver : SecretResolver where
  byPlaceholder := twoKeys.reverse
  distinct := by decide
  placeholders := fun entry member => twoKeyResolver.placeholders entry (List.mem_reverse.mp member)

/-- The token of `u:openshell:resolve:env:KEY_2`. -/
def secondToken : List Char := "dTpvcGVuc2hlbGw6cmVzb2x2ZTplbnY6S0VZXzI=".toList

/-- The shorter key is replaced inside the longer one, or the longer one before it. -/
theorem secondToken_depends : ¬ BasicExact standardBase64 twoKeyResolver secondToken := by
  intro holds
  have same := holds.orderFree otherKeyResolver (List.reverse_perm twoKeys)
  have first : twoKeyResolver.rewriteBasicAuthToken standardBase64 secondToken = some "dTphXzI=".toList := by
    decide +kernel
  have second : otherKeyResolver.rewriteBasicAuthToken standardBase64 secondToken = some "dTpi".toList := by
    decide +kernel
  rw [first, second] at same
  revert same
  decide

def loginText : List Char := "u:".toList ++ placeholderForEnvKey "KEY".toList

theorem loginToken_text : tokenText standardBase64 loginToken = some loginText := by decide

theorem loginText_scan : scan loginText = [.literal "u:".toList, .placeholder "KEY".toList, .literal []] := by
  decide

theorem loginToken_apart : KeptApart (keyResolver "a".toList) loginText := by
  intro done key known knows fresh
  have only : ∀ placeholder, (keyResolver "a".toList).Knows placeholder → placeholder = placeholderForEnvKey "KEY".toList := by
    intro placeholder knows
    simpa [SecretResolver.Knows, keyResolver] using knows
  obtain rfl := placeholderForEnvKey_injective (only _ knows)
  obtain rfl : done = [] := by
    apply List.eq_nil_iff_forall_not_mem.mpr
    intro placeholder member
    have knowsToo : (keyResolver "a".toList).Knows placeholder :=
      List.mem_map_of_mem (entry_of_allows (known placeholder member)).1
    rw [only _ knowsToo] at member
    exact fresh member
  intro offset found
  rw [partly_whole, show matchIndices (placeholderForEnvKey "KEY".toList) loginText = [2] from by decide,
    List.mem_singleton] at found
  exact ⟨[.literal "u:".toList], [.literal []], loginText_scan, found⟩

theorem loginToken_exact : (∀ text, tokenText standardBase64 loginToken = some text →
      KeptApart (keyResolver "a".toList) text) ∧ BasicExact standardBase64 (keyResolver "a".toList) loginToken := by
  have apart : ∀ text, tokenText standardBase64 loginToken = some text → KeptApart (keyResolver "a".toList) text := by
    intro text same
    rw [loginToken_text] at same
    cases same
    exact loginToken_apart
  refine ⟨apart, ((basicExact_iff standardBase64 standardBase64_standard _ _).1 apart).mpr ?_⟩
  intro text same _
  rw [loginToken_text] at same
  cases same
  left
  intro key member
  rw [loginText_scan] at member
  have named : key = "KEY".toList := by simpa using member
  rw [named]
  exact List.mem_singleton.mpr rfl

end Example

end OpenShell.Sandbox
