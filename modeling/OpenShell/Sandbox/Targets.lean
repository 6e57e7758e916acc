import OpenShell.Lib.Numbers
import OpenShell.Sandbox.Proxy

namespace OpenShell.Sandbox

open Text

/-! The two parsers of a destination: the one of CONNECT targets, and the one of the URIs of forwarded requests. -/

/-- A name, an address, or an address in brackets. -/
inductive IsHost : List Char → Prop where
  | plain {host : List Char} (filled : host ≠ []) (noColon : ':' ∉ host) (noSlash : '/' ∉ host)
      (noBracket : host.head? ≠ some '[') : IsHost host
  | bracketed {literal : List Char} (filled : literal ≠ []) (noBracket : ']' ∉ literal) (noSlash : '/' ∉ literal) :
      IsHost ('[' :: literal ++ [']'])

def connectTarget (host portText : List Char) : List Char := host ++ ':' :: portText

def forwardUri (host portText : List Char) : List Char :=
  "http".toList ++ ("://".toList ++ (connectTarget host portText ++ ['/']))

/-- Both parsers give the host and the port. -/
def ParseAlike (host portText : List Char) (port : UInt16) : Prop :=
  ∃ parsed uri, parseTarget (connectTarget host portText) = .ok (parsed, port) ∧
    parseProxyUri (forwardUri host portText) = .ok uri ∧ uri.host = parsed ∧ uri.port = port

section Ports

variable {portText : List Char} {port : UInt16}

theorem char_of_parsePort (isPort : parsePort portText = some port) {c : Char} (member : c ∈ portText) :
    c = '+' ∨ '0' ≤ c ∧ c ≤ '9' := by
  obtain ⟨value, parsed, _⟩ := Option.map_eq_some_iff.mp isPort
  unfold parseUnsigned at parsed
  extract_lets digits at parsed
  split at parsed
  · cases parsed
  · have all := ((parseDigits_eq_some_iff (by decide) (by decide)).mp parsed).1
    have digit : c ∈ digits → '0' ≤ c ∧ c ≤ '9' := by
      intro here
      have read := all c here
      rw [toDigit_ten] at read
      split at read
      · assumption
      · cases read
    by_cases signed : portText.head? = some '+'
    · obtain ⟨rest, rfl⟩ := List.head?_eq_some_iff.mp signed
      rcases List.mem_cons.mp member with plus | later
      · exact .inl plus
      · exact .inr (digit (by rwa [show digits = rest from if_pos rfl]))
    · exact .inr (digit (by rwa [show digits = portText from if_neg signed]))

theorem notMem_of_parsePort (isPort : parsePort portText = some port) :
    ':' ∉ portText ∧ '/' ∉ portText ∧ ']' ∉ portText := by
  refine ⟨fun member => ?_, fun member => ?_, fun member => ?_⟩
  all_goals
    have digit := char_of_parsePort isPort member
    revert digit
    decide

end Ports

section Parsers

variable {host literal authority portText : List Char} {port : UInt16}

theorem find_append {wanted : Char} {before : List Char} (absent : wanted ∉ before) (after : List Char) :
    find wanted (before ++ wanted :: after) = some before.length := by
  unfold find
  induction before with
  | nil => rw [List.nil_append, List.findIdx?_cons, if_pos (by simp)]; rfl
  | cons c before ih =>
    rw [List.mem_cons, not_or] at absent
    rw [List.cons_append, List.findIdx?_cons, ih absent.2, if_neg (by simpa using Ne.symm absent.1)]
    rfl

theorem rsplitOnce_append {separator : Char} {after : List Char} (absent : separator ∉ after) (before : List Char) :
    rsplitOnce separator (before ++ separator :: after) = some (before, after) := by
  have reversed : (before ++ separator :: after).reverse = after.reverse ++ separator :: before.reverse := by simp
  rw [rsplitOnce, reversed, splitOnce_append (by simpa using absent)]
  simp

theorem splitOnceAt_scheme (rest : List Char) :
    splitOnceAt "://".toList ("http".toList ++ ("://".toList ++ rest)) = some ("http".toList, rest) := by
  have found : position "://".toList ("http".toList ++ ("://".toList ++ rest)) = some "http".toList.length :=
    @position_of_notMem _ _ ':' ['/', '/'] "http".toList (by decide) rest
  rw [splitOnceAt, found, Option.map_some, List.take_left, ← List.drop_drop, List.drop_left, List.drop_left]

/-- An authority and a slash, with the one parsed for the host and the port. -/
theorem parseProxyUri_of_parts (filled : host ≠ [])
    (cut : splitAuthority (forwardUri authority portText) (connectTarget authority portText ++ ['/']) =
      .ok (connectTarget authority portText, ['/']))
    (parts : splitHostPort (forwardUri authority portText) "http".toList (connectTarget authority portText) =
      .ok (host, port)) :
    parseProxyUri (forwardUri authority portText) = .ok ⟨"http".toList, host, port, ['/']⟩ := by
  have lower : toAsciiLowercase "http".toList = "http".toList := by decide
  have written : host.isEmpty = false := by simpa using filled
  unfold parseProxyUri
  rw [forwardUri] at *
  rw [splitOnceAt_scheme]
  simp only [lower, cut, parts, bind, Except.bind, written]
  rfl

theorem parseTarget_plain (noColon : ':' ∉ host) (isPort : parsePort portText = some port) :
    parseTarget (connectTarget host portText) = .ok (host, port) := by
  unfold parseTarget connectTarget
  simp only [splitOnce_append noColon, isPort]

theorem parseProxyUri_plain (filled : host ≠ []) (noSlash : '/' ∉ host) (noBracket : host.head? ≠ some '[')
    (isPort : parsePort portText = some port) :
    parseProxyUri (forwardUri host portText) = .ok ⟨"http".toList, host, port, ['/']⟩ := by
  obtain ⟨colonless, slashless, _⟩ := notMem_of_parsePort isPort
  have absent : '/' ∉ connectTarget host portText := by simp [connectTarget, noSlash, slashless]
  have first : ∀ after, (host ++ after).head? ≠ some '[' := by
    obtain ⟨c, rest, rfl⟩ := List.exists_cons_of_ne_nil filled
    exact fun _ => noBracket
  apply parseProxyUri_of_parts filled
  · unfold splitAuthority
    rw [if_neg (show (connectTarget host portText ++ ['/']).head? ≠ some '[' by
      rw [connectTarget, List.append_assoc]; exact first _), find_append absent]
    simp only [List.take_left, List.drop_left]
  · unfold splitHostPort
    rw [if_neg (show (connectTarget host portText).head? ≠ some '[' from first _), connectTarget,
      rsplitOnce_append colonless]
    simp only [isPort]

section Brackets

variable {uri block rest : List Char}

theorem drop_closed (rest : List Char) : (block ++ ']' :: rest).drop (block.length + 1) = rest := by
  rw [← List.drop_drop, List.drop_left]
  rfl

theorem splitAuthority_closed (opens : block.head? = some '[') (opened : ']' ∉ block) (slash : '/' ∉ rest) :
    splitAuthority uri (block ++ ']' :: rest ++ ['/']) = .ok (block ++ ']' :: rest, ['/']) := by
  have starts : (block ++ ']' :: rest ++ ['/']).head? = some '[' := by simp [opens]
  have found : find ']' (block ++ ']' :: rest ++ ['/']) = some block.length := by
    rw [List.append_assoc]
    exact find_append opened _
  have behind : (block ++ ']' :: rest ++ ['/']).drop (block.length + 1) = rest ++ ['/'] := by
    rw [List.append_assoc]
    exact drop_closed _
  have whole : (block ++ ']' :: rest).length = block.length + 1 + rest.length := by
    rw [List.length_append, List.length_cons]
    omega
  unfold splitAuthority
  rw [if_pos starts, found]
  simp only [behind, find_append slash, List.drop_left, ← whole, List.take_left]

theorem splitHostPort_closed (opens : block.head? = some '[') (opened : ']' ∉ block)
    (isPort : parsePort portText = some port) (scheme : List Char) :
    splitHostPort uri scheme (block ++ ']' :: ':' :: portText) = .ok (block.drop 1, port) := by
  have starts : (block ++ ']' :: ':' :: portText).head? = some '[' := by simp [opens]
  unfold splitHostPort
  rw [if_pos starts, find_append opened]
  simp only [drop_closed, List.take_left]
  simp [stripPrefix, isPort]

end Brackets

/-- The brackets are left out. -/
theorem parseProxyUri_bracketed (filled : literal ≠ []) (noBracket : ']' ∉ literal)
    (isPort : parsePort portText = some port) :
    parseProxyUri (forwardUri ('[' :: literal ++ [']']) portText) = .ok ⟨"http".toList, literal, port, ['/']⟩ := by
  have opened : ']' ∉ '[' :: literal := by simp [noBracket]
  have slash : '/' ∉ ':' :: portText := by simp [(notMem_of_parsePort isPort).2.1]
  have target : connectTarget ('[' :: literal ++ [']']) portText = '[' :: literal ++ ']' :: ':' :: portText := by
    simp [connectTarget]
  apply parseProxyUri_of_parts filled
  · rw [target]
    exact splitAuthority_closed rfl opened slash
  · rw [target]
    exact splitHostPort_closed rfl opened isPort _

/-- The closing bracket stands behind the first colon of the literal, where the port is looked for. -/
theorem parseTarget_bracketed (isPort : parsePort portText = some port) (parsed : List Char)
    (ran : parseTarget (connectTarget ('[' :: literal ++ [']']) portText) = .ok (parsed, port)) :
    parsed = '[' :: literal ++ [']'] := by
  unfold parseTarget at ran
  split at ran
  · cases ran
  · rename_i host portStr found
    obtain ⟨cut, early⟩ := splitOnce_eq_some found
    split at ran
    · cases ran
    · rename_i portToo isPortToo
      cases ran
      have closing := (notMem_of_parsePort isPortToo).2.2
      have colonless := (notMem_of_parsePort isPort).1
      rcases List.append_eq_append_iff.mp cut with ⟨more, whole, behind⟩ | ⟨more, whole, behind⟩
      · cases more with
        | nil => rw [whole, List.append_nil]
        | cons c more =>
          rw [List.cons_append, List.cons.injEq] at behind
          rw [whole, ← behind.1] at early
          exact absurd (List.mem_append_right _ List.mem_cons_self) early
      · cases more with
        | nil => rw [whole, List.append_nil]
        | cons c more =>
          -- what follows the first colon within the brackets ends with the closing one
          rw [List.cons_append, List.cons.injEq] at behind
          rcases List.eq_nil_or_concat more with rfl | ⟨front, last, rfl⟩
          · have colon := List.cons.inj (List.append_inj_right' whole rfl)
            rw [← behind.1] at colon
            exact absurd colon.1 (by decide)
          · rw [List.concat_eq_append, ← List.cons_append, ← List.append_assoc] at whole
            have bracket := List.cons.inj (List.append_inj_right' whole rfl)
            rw [behind.2, ← bracket.1] at closing
            simp at closing

end Parsers

section Agreement

variable {host portText : List Char} {port : UInt16}

/-- The parsers agree exactly on the hosts without brackets. -/
theorem targets_alike_iff (isHost : IsHost host) (isPort : parsePort portText = some port) :
    ParseAlike host portText port ↔ host.head? ≠ some '[' := by
  cases isHost with
  | plain filled noColon noSlash noBracket =>
    exact iff_of_true ⟨_, _, parseTarget_plain noColon isPort, parseProxyUri_plain filled noSlash noBracket isPort,
      rfl, rfl⟩ noBracket
  | @bracketed literal filled noBracket noSlash =>
    refine iff_of_false ?_ (fun plain => plain rfl)
    rintro ⟨parsed, uri, ran, ranToo, same, -⟩
    rw [parseProxyUri_bracketed filled noBracket isPort] at ranToo
    cases ranToo
    have lengths := congrArg List.length (same.trans (parseTarget_bracketed isPort _ ran))
    simp only [List.length_append, List.length_cons, List.length_nil] at lengths
    omega

end Agreement

/-- The loopback address of IPv6. -/
def loopback : List Char := "[::1]".toList

theorem isHost_loopback : IsHost loopback :=
  @IsHost.bracketed "::1".toList (by decide) (by decide) (by decide)

/-- A CONNECT to an address in brackets fails. -/
theorem loopback_fails : ¬∀ host portText port, IsHost host → parsePort portText = some port →
    ParseAlike host portText port := by
  intro alike
  have isPort : parsePort "443".toList = some 443 := by decide +kernel
  exact (targets_alike_iff isHost_loopback isPort).mp (alike loopback "443".toList 443 isHost_loopback isPort) rfl

theorem name_alike : ParseAlike "api.example.com".toList "443".toList 443 :=
  (targets_alike_iff (.plain (by decide) (by decide) (by decide) (by decide)) (by decide +kernel)).mpr (by decide)

end OpenShell.Sandbox
