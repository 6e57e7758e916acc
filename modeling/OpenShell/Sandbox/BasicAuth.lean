import OpenShell.Sandbox.KeptApart

namespace OpenShell.Sandbox

open Text Results

/-! Placeholders inside the token for Basic authentication, where the scan of the text does not see them. -/

def headerValue (line : List Char) : Option (List Char) := (splitOnce ':' line).map Prod.snd

def tokenText (base64 : Base64) (token : List Char) : Option (List Char) := (base64.decode (trim token)).bind utf8Decode

/-- What the placeholders and the secrets of a header value have to be for none to stay hidden in it. -/
structure Closes (base64 : Base64) (secretResolver : Option SecretResolver) (value : List Char) : Prop where
  /-- The placeholders in a value for Basic authentication are all replaced. -/
  token : ∀ text, basicText base64 value = some text → hasPlaceholder text = true →
    ∃ resolver ∈ secretResolver, Clears resolver text
  /-- The secret of a value that is a placeholder is no value for Basic authentication with one. -/
  alone : ∀ resolver ∈ secretResolver, ∀ secret, resolver.resolvePlaceholder (trim value) = some secret →
    hidesPlaceholder base64 secret = false
  /-- The secret of a placeholder behind the word `Basic` is no token with one. -/
  behind : ∀ resolver ∈ secretResolver, ∀ word secret, WordBefore resolver value word secret →
    word = "Basic".toList ∨ word = "basic".toList → ∀ text, tokenText base64 secret = some text →
    hasPlaceholder text = false

section Values

variable {base64 : Base64} {resolver : SecretResolver} {value text : List Char}

theorem white_of_base64 {c : Char} (letter : isBase64Char c = true) : isWhitespace c = false := by
  rw [isBase64Char, Bool.or_eq_true, decide_eq_true_eq, List.contains_iff_mem] at letter
  rcases letter with listed | rfl
  · exact plain_of_all (by decide) c listed
  · decide

theorem trim_of_plain {text : List Char} (plain : Plain text) : trim text = text := by
  apply trim_whole
  · exact fun c member => plain c (List.mem_of_mem_head? member)
  · exact fun c member => plain c (List.mem_of_getLast? member)

theorem basicRewritten_of_text (textOf : basicText base64 value = some text) (placeholder : hasPlaceholder text = true) :
    basicRewritten base64 resolver value = (replacePlaceholders text resolver.byPlaceholder).bind fun rewritten =>
      if rewritten = text then none else some rewritten := by
  unfold basicRewritten
  rw [textOf]
  simp only [bind, Option.bind_some, placeholder, Bool.not_true, Bool.false_eq_true, if_false]

end Values

section Block

variable {base64 : Base64} {raw : List UInt8} {endsAt : Nat}

end Block

section Example

end Example

end OpenShell.Sandbox
