import Mathlib.Algebra.Ring.Nat
import Mathlib.Data.List.DropRight
import Mathlib.Data.List.Infix
import Mathlib.Data.Nat.Find

namespace Text

def isWhitespace (c : Char) : Bool :=
  (9 ≤ c.toNat && c.toNat ≤ 13) || c.toNat = 32 || c.toNat = 133 || c.toNat = 160 || c.toNat = 5760 ||
  (8192 ≤ c.toNat && c.toNat ≤ 8202) || c.toNat = 8232 || c.toNat = 8233 || c.toNat = 8239 ||
  c.toNat = 8287 || c.toNat = 12288

def trim (text : List Char) : List Char := (text.dropWhile isWhitespace).rdropWhile isWhitespace

def contains (text pattern : List Char) : Bool := text.tails.any (pattern.isPrefixOf ·)

def hexDigit (digit : Nat) : Char := "0123456789abcdef".toList.getD digit '0'

def hexEncode (bytes : List UInt8) : String :=
  String.ofList (bytes.flatMap fun byte => [hexDigit (byte.toNat / 16), hexDigit (byte.toNat % 16)])

/-! Cutting text. -/

def splitWhen (separates : Char → Bool) : List Char → List (List Char)
  | [] => [[]]
  | c :: text =>
    if separates c then [] :: splitWhen separates text
    else (splitWhen separates text).modifyHead (c :: ·)

def split (separator : Char) (text : List Char) : List (List Char) := splitWhen (· = separator) text

def splitWhitespace (text : List Char) : List (List Char) :=
  (splitWhen isWhitespace text).filter (!·.isEmpty)

def splitOnce (separator : Char) : List Char → Option (List Char × List Char)
  | [] => none
  | c :: text =>
    if c = separator then some ([], text)
    else (splitOnce separator text).map fun (before, after) => (c :: before, after)

def splitn (separator : Char) : Nat → List Char → List (List Char)
  | 0, _ => []
  | 1, text => [text]
  | count + 2, text =>
    match splitOnce separator text with
    | none => [text]
    | some (piece, rest) => piece :: splitn separator (count + 1) rest

def splitCrlf : List Char → List (List Char)
  | [] => [[]]
  | '\r' :: '\n' :: text => [] :: splitCrlf text
  | c :: text => (splitCrlf text).modifyHead (c :: ·)

def firstLine (text : List Char) : List Char := (splitCrlf text).headD []

def rsplitOnce (separator : Char) (text : List Char) : Option (List Char × List Char) :=
  (splitOnce separator text.reverse).map fun (after, before) => (before.reverse, after.reverse)

def stripSuffix (c : Char) (text : List Char) : List Char :=
  if text.getLast? = some c then text.dropLast else text

/-- Lines end with a line feed, before which a carriage return is dropped. What follows the last line
    feed is a line if it is not empty. -/
def lines (text : List Char) : List (List Char) :=
  let pieces := split '\n' text
  pieces.dropLast.map (stripSuffix '\r') ++ (pieces.getLast?.toList.filter (!·.isEmpty))

def crlfText : List Char := ['\r', '\n']

def stripPrefix (lead text : List Char) : Option (List Char) :=
  if lead.isPrefixOf text then some (text.drop lead.length) else none

def join (separator : List Char) (pieces : List (List Char)) : List Char := separator.intercalate pieces

def position {α : Type} [DecidableEq α] (pattern : List α) : List α → Option Nat
  | [] => if pattern.isEmpty then some 0 else none
  | item :: items =>
    if pattern.isPrefixOf (item :: items) then some 0 else (position pattern items).map (· + 1)

def splitOnceAt (pattern text : List Char) : Option (List Char × List Char) :=
  (position pattern text).map fun offset => (text.take offset, text.drop (offset + pattern.length))

/-- Puts `value` in the place of every `pattern`, from left to right. `skip` counts the characters of
    a pattern found that are still to be passed. -/
def replaceFrom (pattern value : List Char) : Nat → List Char → List Char
  | _, [] => []
  | skip + 1, _ :: text => replaceFrom pattern value skip text
  | 0, c :: text =>
    if pattern.isPrefixOf (c :: text) then value ++ replaceFrom pattern value (pattern.length - 1) text
    else c :: replaceFrom pattern value 0 text

def replace (pattern value text : List Char) : List Char := replaceFrom pattern value 0 text

/-- The places in which `replaceFrom` finds the pattern, as counted from `offset`. -/
def matchIndicesFrom (pattern : List Char) : Nat → Nat → List Char → List Nat
  | _, _, [] => []
  | skip + 1, offset, _ :: text => matchIndicesFrom pattern skip (offset + 1) text
  | 0, offset, c :: text =>
    if pattern.isPrefixOf (c :: text) then offset :: matchIndicesFrom pattern (pattern.length - 1) (offset + 1) text
    else matchIndicesFrom pattern 0 (offset + 1) text

def matchIndices (pattern text : List Char) : List Nat := matchIndicesFrom pattern 0 0 text

/-! Characters and numbers. -/

def toAsciiLowercase (text : List Char) : List Char := text.map Char.toLower

theorem alphanum_range {c : Char} (alphanum : c.isAlphanum = true) :
    (65 ≤ c.toNat ∧ c.toNat ≤ 90) ∨ (97 ≤ c.toNat ∧ c.toNat ≤ 122) ∨ (48 ≤ c.toNat ∧ c.toNat ≤ 57) := by
  rcases (Bool.or_eq_true _ _).mp alphanum with alpha | digit
  · rcases (Bool.or_eq_true _ _).mp alpha with upper | lower
    · exact .inl (of_decide_eq_true upper)
    · obtain ⟨low, high⟩ := (Bool.and_eq_true _ _).mp lower
      exact .inr (.inl ⟨of_decide_eq_true low, of_decide_eq_true high⟩)
  · obtain ⟨low, high⟩ := (Bool.and_eq_true _ _).mp digit
    exact .inr (.inr ⟨of_decide_eq_true low, of_decide_eq_true high⟩)

def toDigit (radix : Nat) (c : Char) : Option Nat :=
  let value :=
    if '0' ≤ c ∧ c ≤ '9' then some (c.toNat - '0'.toNat)
    else if 'a' ≤ c ∧ c ≤ 'z' then some (c.toNat - 'a'.toNat + 10)
    else if 'A' ≤ c ∧ c ≤ 'Z' then some (c.toNat - 'A'.toNat + 10)
    else none
  value.filter (· < radix)

def parseDigits (radix bound : Nat) (read : Nat) : List Char → Option Nat
  | [] => some read
  | c :: text => do
    let digit ← toDigit radix c
    if read * radix + digit < bound then parseDigits radix bound (read * radix + digit) text else none

/-- An unsigned number below `bound`. One plus sign may stand before its digits. -/
def parseUnsigned (radix bound : Nat) (text : List Char) : Option Nat :=
  let digits := if text.head? = some '+' then text.tail else text
  if digits.isEmpty then none else parseDigits radix bound 0 digits

theorem parseDigits_lt {radix bound read value : Nat} {text : List Char} (inside : read < bound)
    (parsed : parseDigits radix bound read text = some value) : value < bound := by
  induction text generalizing read with
  | nil =>
    cases parsed
    exact inside
  | cons c text ih =>
    unfold parseDigits at parsed
    simp only [bind, Option.bind_eq_some_iff] at parsed
    obtain ⟨digit, _, more⟩ := parsed
    split at more
    · rename_i fits
      exact ih fits more
    · cases more

theorem parseUnsigned_lt {radix bound value : Nat} {text : List Char} (positive : 0 < bound)
    (parsed : parseUnsigned radix bound text = some value) : value < bound := by
  unfold parseUnsigned at parsed
  extract_lets digits at parsed
  split at parsed
  · cases parsed
  · exact parseDigits_lt positive parsed

/-! Hexadecimal text. -/

section Hexadecimal

def hexDigitAt (position : Nat) (c : Char) : Except String Nat :=
  match toDigit 16 c with
  | some digit => .ok digit
  | none => .error ("Invalid character " ++ c.quote ++ " at position " ++ toString position)

def hexPairs (position : Nat) : List Char → Except String (List UInt8)
  | high :: low :: text => do
    let first ← hexDigitAt position high
    let second ← hexDigitAt (position + 1) low
    let rest ← hexPairs (position + 2) text
    pure (UInt8.ofNat (first * 16 + second) :: rest)
  | _ => .ok []

def hexDecode (text : List Char) : Except String (List UInt8) :=
  if text.length % 2 = 1 then .error "Odd number of digits" else hexPairs 0 text

theorem hexDigitAt_hexDigit (position : Nat) {digit : Nat} (small : digit < 16) :
    hexDigitAt position (hexDigit digit) = .ok digit := by
  have read : ∀ digit : Fin 16, toDigit 16 (hexDigit digit) = some digit.val := by decide
  unfold hexDigitAt
  rw [read ⟨digit, small⟩]

theorem hexPairs_encoded (position : Nat) (bytes : List UInt8) :
    hexPairs position (bytes.flatMap fun byte => [hexDigit (byte.toNat / 16), hexDigit (byte.toNat % 16)]) = .ok bytes := by
  induction bytes generalizing position with
  | nil => rfl
  | cons byte bytes ih =>
    have bound := byte.toNat_lt
    have whole : UInt8.ofNat (byte.toNat / 16 * 16 + byte.toNat % 16) = byte := by
      rw [Nat.div_add_mod']
      exact UInt8.ofNat_toNat
    rw [List.flatMap_cons, List.cons_append, List.cons_append, List.nil_append, hexPairs,
      hexDigitAt_hexDigit _ (by omega), hexDigitAt_hexDigit _ (Nat.mod_lt _ (by decide)), ih]
    exact congrArg (fun first => Except.ok (first :: bytes)) whole

theorem hexDecode_hexEncode (bytes : List UInt8) : hexDecode (hexEncode bytes).toList = .ok bytes := by
  have even : (bytes.flatMap fun byte => [hexDigit (byte.toNat / 16), hexDigit (byte.toNat % 16)]).length % 2 ≠ 1 := by
    rw [List.length_flatMap]
    simp
  unfold hexDecode hexEncode
  rw [String.toList_ofList, if_neg even, hexPairs_encoded]

end Hexadecimal

theorem contains_iff_isInfixOf {text pattern : List Char} : contains text pattern = true ↔ pattern <:+: text := by
  unfold contains
  rw [List.any_eq_true, List.infix_iff_prefix_suffix]
  constructor
  · intro found
    obtain ⟨tail, member, starts⟩ := found
    exact ⟨tail, List.isPrefixOf_iff_prefix.mp starts, (List.mem_tails _ _).mp member⟩
  · intro found
    obtain ⟨tail, starts, suffix⟩ := found
    exact ⟨tail, (List.mem_tails _ _).mpr suffix, List.isPrefixOf_iff_prefix.mpr starts⟩

theorem prefix_append_cases {α : Type} {rest first second : List α} (starts : rest <+: first ++ second) :
    (rest <+: first ∧ rest.length < first.length) ∨ ∃ part, rest = first ++ part ∧ part <+: second := by
  by_cases short : rest.length < first.length
  · exact .inl ⟨List.prefix_of_prefix_length_le starts (List.prefix_append _ _) short.le, short⟩
  · right
    obtain ⟨part, rfl⟩ := List.prefix_of_prefix_length_le (List.prefix_append first second) starts (by omega)
    exact ⟨part, rfl, (List.prefix_append_right_inj first).mp starts⟩

/-- Where a pattern stands in two parts with a separator between them, which the pattern does not have. -/
theorem append_cons_cut {α : Type} {separator : α} {pattern before after first rest : List α}
    (apart : separator ∉ pattern) (same : before ++ (pattern ++ after) = first ++ separator :: rest) :
    (∃ later, first = before ++ (pattern ++ later)) ∨
      ∃ lead, before = first ++ separator :: lead ∧ rest = lead ++ (pattern ++ after) := by
  rcases List.append_eq_append_iff.mp same with ⟨inFirst, firstIs, behind⟩ | ⟨crossing, beforeIs, behind⟩
  · left
    rcases List.append_eq_append_iff.mp behind with ⟨left, reaches, _⟩ | ⟨left, inside, behind⟩
    · exact ⟨left, by rw [firstIs, reaches]⟩
    · cases left with
      | nil => exact ⟨[], by rw [firstIs, inside, List.append_nil, List.append_nil]⟩
      | cons c left =>
        rw [List.cons_append, List.cons.injEq] at behind
        rw [inside, ← behind.1] at apart
        simp at apart
  · cases crossing with
    | nil =>
      left
      cases pattern with
      | nil => exact ⟨[], by rw [beforeIs, List.append_nil, List.append_nil, List.append_nil]⟩
      | cons c pattern =>
        rw [List.nil_append, List.cons_append, List.cons.injEq] at behind
        rw [behind.1] at apart
        simp at apart
    | cons c crossing =>
      rw [List.cons_append, List.cons.injEq] at behind
      right
      exact ⟨crossing, by rw [beforeIs, behind.1], behind.2⟩

theorem infix_append_cons {α : Type} {separator : α} {pattern before after : List α} (apart : separator ∉ pattern)
    (found : pattern <:+: before ++ separator :: after) : pattern <:+: before ∨ pattern <:+: after := by
  obtain ⟨lead, rest, same⟩ := found
  rw [List.append_assoc] at same
  rcases append_cons_cut apart same with ⟨later, inBefore⟩ | ⟨crossing, _, inAfter⟩
  · left
    exact ⟨lead, later, by rw [inBefore, List.append_assoc]⟩
  · right
    exact ⟨crossing, rest, by rw [inAfter, List.append_assoc]⟩

section Replacing

variable {pattern value text rest : List Char}

theorem replaceFrom_skip (pattern value skipped text : List Char) :
    replaceFrom pattern value skipped.length (skipped ++ text) = replaceFrom pattern value 0 text := by
  induction skipped with
  | nil => rfl
  | cons c skipped ih => rw [List.length_cons, List.cons_append, replaceFrom, ih]

theorem replaceFrom_pattern (filled : pattern ≠ []) :
    replaceFrom pattern value 0 (pattern ++ rest) = value ++ replaceFrom pattern value 0 rest := by
  obtain ⟨c, pattern, rfl⟩ := List.exists_cons_of_ne_nil filled
  rw [List.cons_append, replaceFrom, if_pos, List.length_cons, Nat.add_sub_cancel, replaceFrom_skip]
  rw [List.isPrefixOf_iff_prefix, ← List.cons_append]
  exact List.prefix_append _ _

/-- Where no pattern starts, the text is kept. -/
theorem replaceFrom_kept (apart : ∀ before behind, text = before ++ behind → behind ≠ [] → ¬ pattern <+: behind ++ rest) :
    replaceFrom pattern value 0 (text ++ rest) = text ++ replaceFrom pattern value 0 rest := by
  induction text with
  | nil => rfl
  | cons c text ih =>
    have here := apart [] (c :: text) rfl (List.cons_ne_nil _ _)
    rw [List.cons_append, replaceFrom, if_neg (by rwa [List.isPrefixOf_iff_prefix, ← List.cons_append]), ih]
    · rfl
    · intro before behind same
      exact apart (c :: before) behind (by rw [same]; rfl)

/-- A text without the pattern stays as it is. -/
theorem replace_absent (absent : ¬ pattern <:+: text) : replace pattern value text = text := by
  have kept := @replaceFrom_kept pattern value text [] fun before behind same _ starts =>
    absent (starts.isInfix.trans ⟨before, [], by rw [same, List.append_nil, List.append_nil]⟩)
  rw [List.append_nil] at kept
  unfold replace
  rw [kept, replaceFrom, List.append_nil]

theorem matchIndicesFrom_skip (pattern skipped text : List Char) (offset : Nat) :
    matchIndicesFrom pattern skipped.length offset (skipped ++ text) =
      matchIndicesFrom pattern 0 (offset + skipped.length) text := by
  induction skipped generalizing offset with
  | nil => rfl
  | cons c skipped ih =>
    rw [List.length_cons, List.cons_append, matchIndicesFrom, ih, Nat.add_right_comm, Nat.add_assoc]

theorem matchIndicesFrom_pattern (filled : pattern ≠ []) (offset : Nat) :
    matchIndicesFrom pattern 0 offset (pattern ++ rest) =
      offset :: matchIndicesFrom pattern 0 (offset + pattern.length) rest := by
  obtain ⟨c, pattern, rfl⟩ := List.exists_cons_of_ne_nil filled
  rw [List.cons_append, matchIndicesFrom, if_pos, List.length_cons, Nat.add_sub_cancel, matchIndicesFrom_skip,
    Nat.add_right_comm, Nat.add_assoc]
  rw [List.isPrefixOf_iff_prefix, ← List.cons_append]
  exact List.prefix_append _ _

/-- Either no pattern starts in the text, or the search finds one there. -/
theorem matchIndicesFrom_kept (offset : Nat) :
    ((∀ before behind, text = before ++ behind → behind ≠ [] → ¬ pattern <+: behind ++ rest) ∧
      matchIndicesFrom pattern 0 offset (text ++ rest) = matchIndicesFrom pattern 0 (offset + text.length) rest) ∨
    ∃ start < text.length, offset + start ∈ matchIndicesFrom pattern 0 offset (text ++ rest) := by
  induction text generalizing offset with
  | nil =>
    left
    refine ⟨?_, rfl⟩
    intro before behind same filled
    exact absurd (List.append_eq_nil_iff.mp same.symm).2 filled
  | cons c text ih =>
    by_cases here : pattern.isPrefixOf (c :: (text ++ rest)) = true
    · right
      refine ⟨0, Nat.succ_pos _, ?_⟩
      rw [List.cons_append, matchIndicesFrom, if_pos here]
      exact List.mem_cons_self ..
    · rw [List.cons_append, matchIndicesFrom, if_neg here]
      rcases ih (offset + 1) with ⟨apart, same⟩ | ⟨start, inside, found⟩
      · left
        constructor
        · intro before behind cut filled
          cases before with
          | nil =>
            rw [List.nil_append] at cut
            rwa [← cut, List.cons_append, ← List.isPrefixOf_iff_prefix]
          | cons d before =>
            rw [List.cons_append, List.cons.injEq] at cut
            exact apart before behind cut.2 filled
        · rw [same, List.length_cons, Nat.add_right_comm, Nat.add_assoc]
      · right
        refine ⟨start + 1, Nat.succ_lt_succ inside, ?_⟩
        rwa [Nat.add_right_comm, Nat.add_assoc] at found

/-- A pattern that the text holds is found. -/
theorem exists_matchIndices (filled : pattern ≠ []) (held : pattern <:+: text) :
    ∃ offset, offset ∈ matchIndices pattern text := by
  obtain ⟨before, after, same⟩ := held
  rw [List.append_assoc] at same
  have starts : pattern <+: pattern ++ after := List.prefix_append _ _
  have some_left : pattern ++ after ≠ [] := List.append_ne_nil_of_left_ne_nil filled after
  rcases @matchIndicesFrom_kept pattern text [] 0 with ⟨apart, _⟩ | ⟨start, _, found⟩
  · have absent := apart before (pattern ++ after) same.symm some_left
    rw [List.append_nil] at absent
    exact absurd starts absent
  · rw [List.append_nil] at found
    exact ⟨_, found⟩

end Replacing

theorem infix_of_trim (text : List Char) : trim text <:+: text :=
  (List.rdropWhile_prefix _ _).isInfix.trans (List.dropWhile_suffix _).isInfix

/-- A text that neither begins nor ends with whitespace has nothing to trim. -/
theorem trim_whole {text : List Char} (starts : ∀ c ∈ text.head?, isWhitespace c = false)
    (ends : ∀ c ∈ text.getLast?, isWhitespace c = false) : trim text = text := by
  unfold trim
  have kept : text.dropWhile isWhitespace = text := by
    cases text with
    | nil => rfl
    | cons c text =>
      rw [List.dropWhile_cons_of_neg]
      simp [starts c rfl]
  rw [kept, List.rdropWhile_eq_self_iff]
  intro filled
  simp [ends _ (List.getLast?_eq_some_getLast filled)]

theorem head_trim (text : List Char) : ∀ c ∈ (trim text).head?, isWhitespace c = false := by
  intro c member
  obtain ⟨rest, same⟩ : trim text <+: text.dropWhile isWhitespace := List.rdropWhile_prefix _ _
  have first : (text.dropWhile isWhitespace).head? = some c := by
    rw [← same, List.head?_append, member]
    rfl
  have stops := List.head?_dropWhile_not isWhitespace text
  rw [first] at stops
  simpa using stops

theorem getLast_trim (text : List Char) : ∀ c ∈ (trim text).getLast?, isWhitespace c = false := by
  intro c member
  have filled : trim text ≠ [] := by
    intro empty
    rw [empty] at member
    cases member
  have last := List.rdropWhile_last_not isWhitespace (text.dropWhile isWhitespace) filled
  rw [List.getLast?_eq_some_getLast filled] at member
  cases member
  exact Bool.eq_false_iff.mpr last

theorem trim_trim (text : List Char) : trim (trim text) = trim text := trim_whole (head_trim text) (getLast_trim text)

theorem trim_white {c : Char} (white : isWhitespace c = true) (value : List Char) : trim (c :: value) = trim value := by
  unfold trim
  rw [List.dropWhile_cons_of_pos white]

section Splitting

variable {separator : Char} {text : List Char} {pieces : List (List Char)}

theorem splitWhen_eq_splitOnP (separates : Char → Bool) (text : List Char) :
    splitWhen separates text = text.splitOnP separates := by
  induction text with
  | nil => rfl
  | cons c text ih => rw [splitWhen, ih, List.splitOnP_cons_eq_if_modifyHead]

theorem split_eq_splitOn : split separator text = text.splitOn separator := by
  rw [split, splitWhen_eq_splitOnP, List.splitOn_eq_splitOnP]
  rfl

theorem join_split : join [separator] (split separator text) = text := by
  rw [split_eq_splitOn]
  exact List.intercalate_splitOn separator

theorem split_ne_nil : split separator text ≠ [] := by
  rw [split_eq_splitOn]
  exact List.splitOn_ne_nil _ _

theorem join_cons_cons (piece next : List Char) (pieces : List (List Char)) :
    join [separator] (piece :: next :: pieces) = piece ++ separator :: join [separator] (next :: pieces) := by
  simp [join]

theorem length_join (filled : pieces ≠ []) :
    (join [separator] pieces).length + 1 = (pieces.map fun piece => piece.length + 1).sum := by
  induction pieces with
  | nil => exact absurd rfl filled
  | cons piece pieces ih =>
    cases pieces with
    | nil => simp [join]
    | cons next pieces =>
      have later := ih (List.cons_ne_nil _ _)
      rw [join_cons_cons, List.map_cons, List.sum_cons, List.length_append, List.length_cons]
      omega

theorem mem_join {c : Char} : c ∈ join [separator] pieces →
    c = separator ∨ ∃ piece ∈ pieces, c ∈ piece := by
  induction pieces with
  | nil => simp [join]
  | cons piece pieces ih =>
    cases pieces with
    | nil =>
      intro member
      right
      simpa [join] using member
    | cons next pieces =>
      intro member
      rw [join_cons_cons, List.mem_append, List.mem_cons] at member
      rcases member with here | same | later
      · exact .inr ⟨piece, List.mem_cons_self .., here⟩
      · exact .inl same
      · rcases ih later with same | ⟨found, inside, holds⟩
        · exact .inl same
        · exact .inr ⟨found, List.mem_cons_of_mem _ inside, holds⟩

theorem split_join (filled : pieces ≠ []) (whole : ∀ piece ∈ pieces, separator ∉ piece) :
    split separator (join [separator] pieces) = pieces := by
  rw [split_eq_splitOn]
  exact List.splitOn_intercalate separator whole filled

theorem infix_join {piece : List Char} (member : piece ∈ pieces) : piece <:+: join [separator] pieces := by
  induction pieces with
  | nil => cases member
  | cons next pieces ih =>
    cases pieces with
    | nil =>
      rw [List.mem_singleton.mp member]
      simp [join]
    | cons following pieces =>
      rw [join_cons_cons]
      rcases List.mem_cons.mp member with here | later
      · rw [here]
        exact (List.prefix_append _ _).isInfix
      · apply (ih later).trans
        exact ⟨next ++ [separator], [], by simp⟩

theorem infix_of_join {pattern : List Char} (apart : separator ∉ pattern)
    (filled : pattern ≠ []) (found : pattern <:+: join [separator] pieces) : ∃ piece ∈ pieces, pattern <:+: piece := by
  induction pieces with
  | nil => exact absurd (List.infix_nil.mp found) filled
  | cons piece pieces ih =>
    cases pieces with
    | nil => exact ⟨piece, List.mem_cons_self .., by simpa [join] using found⟩
    | cons next pieces =>
      rw [join_cons_cons] at found
      rcases infix_append_cons apart found with here | later
      · exact ⟨piece, List.mem_cons_self .., here⟩
      · obtain ⟨other, member, holds⟩ := ih later
        exact ⟨other, List.mem_cons_of_mem _ member, holds⟩

theorem stripPrefix_eq_some {lead text rest : List Char} : stripPrefix lead text = some rest ↔ text = lead ++ rest := by
  unfold stripPrefix
  split
  · rename_i starts
    obtain ⟨behind, rfl⟩ := List.isPrefixOf_iff_prefix.mp starts
    rw [List.drop_left, Option.some.injEq, List.append_cancel_left_eq]
  · rename_i apart
    refine iff_of_false (by simp) ?_
    rintro rfl
    exact apart (List.isPrefixOf_iff_prefix.mpr (List.prefix_append _ _))

theorem infix_of_mem_split {piece : List Char} (member : piece ∈ split separator text) : piece <:+: text := by
  have within := @infix_join separator _ _ member
  rwa [join_split] at within

theorem separates_of_mem_splitWhen {separates : Char → Bool} {piece : List Char} {c : Char}
    (member : piece ∈ splitWhen separates text) (inside : c ∈ piece) : separates c = false := by
  induction text generalizing piece with
  | nil =>
    rw [splitWhen, List.mem_singleton] at member
    rw [member] at inside
    cases inside
  | cons d text ih =>
    rw [splitWhen] at member
    split at member
    · rcases List.mem_cons.mp member with here | later
      · rw [here] at inside
        cases inside
      · exact ih later inside
    · rename_i stays
      cases pieces : splitWhen separates text with
      | nil =>
        rw [pieces] at member
        cases member
      | cons head tail =>
        rw [pieces] at member ih
        rcases List.mem_cons.mp member with here | later
        · rw [here] at inside
          rcases List.mem_cons.mp inside with same | within
          · rw [same]
            simpa using stays
          · exact ih (List.mem_cons_self ..) within
        · exact ih (List.mem_cons_of_mem _ later) inside

theorem splitWhen_ne_nil (separates : Char → Bool) (text : List Char) : splitWhen separates text ≠ [] := by
  rw [splitWhen_eq_splitOnP]
  exact List.splitOnP_ne_nil _ _

theorem mem_of_mem_splitWhen {separates : Char → Bool} {piece : List Char} {c : Char}
    (member : piece ∈ splitWhen separates text) (inside : c ∈ piece) : c ∈ text := by
  induction text generalizing piece with
  | nil =>
    rw [splitWhen, List.mem_singleton] at member
    rwa [member] at inside
  | cons d text ih =>
    rw [splitWhen] at member
    split at member
    · rcases List.mem_cons.mp member with rfl | later
      · cases inside
      · exact List.mem_cons_of_mem _ (ih later inside)
    · obtain ⟨first, pieces, pieced⟩ := List.exists_cons_of_ne_nil (splitWhen_ne_nil separates text)
      rw [pieced] at member ih
      rcases List.mem_cons.mp member with rfl | later
      · rcases List.mem_cons.mp inside with rfl | within
        · exact List.mem_cons_self
        · exact List.mem_cons_of_mem _ (ih List.mem_cons_self within)
      · exact List.mem_cons_of_mem _ (ih (List.mem_cons_of_mem _ later) inside)

theorem notMem_of_mem_split {piece : List Char} (member : piece ∈ split separator text) : separator ∉ piece := by
  intro inside
  have stays := separates_of_mem_splitWhen member inside
  simp at stays

theorem splitWhen_whole {separates : Char → Bool} {piece : List Char}
    (whole : ∀ c ∈ piece, separates c = false) : splitWhen separates piece = [piece] := by
  rw [splitWhen_eq_splitOnP]
  exact List.splitOnP_eq_singleton whole

theorem splitWhen_append_cons {separates : Char → Bool} {c : Char} (cuts : separates c = true)
    (before after : List Char) :
    splitWhen separates (before ++ c :: after) = splitWhen separates before ++ splitWhen separates after := by
  rw [splitWhen_eq_splitOnP, splitWhen_eq_splitOnP, splitWhen_eq_splitOnP]
  exact List.splitOnP_append_cons _ _ cuts

theorem splitWhen_append {separates : Char → Bool} {piece : List Char} {c : Char}
    (whole : ∀ d ∈ piece, separates d = false) (cuts : separates c = true) (text : List Char) :
    splitWhen separates (piece ++ c :: text) = piece :: splitWhen separates text := by
  rw [splitWhen_append_cons cuts, splitWhen_whole whole]
  rfl

theorem headD_split (other : List Char) :
    (split separator text).headD other = text.takeWhile fun c => c ≠ separator := by
  unfold split
  induction text with
  | nil => rfl
  | cons c text ih =>
    rw [splitWhen]
    by_cases cut : c = separator
    · simp [cut]
    · obtain ⟨piece, pieces, pieced⟩ := List.exists_cons_of_ne_nil (splitWhen_ne_nil (· = separator) text)
      rw [pieced] at ih ⊢
      simpa [cut] using ih

theorem split_whole (whole : separator ∉ text) : split separator text = [text] := by
  apply splitWhen_whole
  intro c member
  rw [decide_eq_false_iff_not]
  rintro rfl
  exact whole member

theorem split_behind {last : List Char} (whole : separator ∉ last) (lead : List Char) :
    split separator (lead ++ separator :: last) = split separator lead ++ [last] := by
  have behind : split separator last = [last] := split_whole whole
  unfold split at behind ⊢
  rw [splitWhen_append_cons (by simp), behind]

theorem last_separator (member : separator ∈ text) :
    ∃ lead last, separator ∉ last ∧ text = lead ++ separator :: last := by
  obtain ⟨last, lead, cut, whole⟩ := List.eq_append_cons_of_mem (List.mem_reverse.mpr member)
  refine ⟨lead.reverse, last.reverse, by simpa using whole, ?_⟩
  rw [← List.reverse_reverse text, cut]
  simp

theorem append_cons_unique {α : Type} {item : α} {front other behind rest : List α} (apart : item ∉ behind)
    (outside : item ∉ rest) (same : front ++ item :: behind = other ++ item :: rest) : front = other ∧ behind = rest := by
  rcases List.append_eq_append_iff.mp same with ⟨more, rfl, tail⟩ | ⟨more, rfl, tail⟩
  · cases more with
    | nil => simpa using tail
    | cons first more =>
      rw [List.cons_append, List.cons.injEq] at tail
      rw [tail.2] at apart
      simp at apart
  · cases more with
    | nil => simpa using tail.symm
    | cons first more =>
      rw [List.cons_append, List.cons.injEq] at tail
      rw [tail.2] at outside
      simp at outside

theorem length_split : (split separator text).length = text.count separator + 1 := by
  unfold split
  induction text with
  | nil => rfl
  | cons c text ih =>
    rw [splitWhen]
    split
    · rename_i here
      rw [List.length_cons, ih, of_decide_eq_true here, List.count_cons_self]
    · rename_i other
      rw [List.length_modifyHead, ih, List.count_cons_of_ne]
      simpa using other

theorem splitOnce_append {before : List Char} (absent : separator ∉ before) (after : List Char) :
    splitOnce separator (before ++ separator :: after) = some (before, after) := by
  induction before with
  | nil => rw [List.nil_append, splitOnce, if_pos rfl]
  | cons c before ih =>
    rw [List.mem_cons, not_or] at absent
    rw [List.cons_append, splitOnce, if_neg (Ne.symm absent.1), ih absent.2]
    rfl

theorem splitOnce_eq_some {before after : List Char} (found : splitOnce separator text = some (before, after)) :
    text = before ++ separator :: after ∧ separator ∉ before := by
  induction text generalizing before with
  | nil => cases found
  | cons c text ih =>
    rw [splitOnce] at found
    split at found
    · rename_i here
      cases found
      exact ⟨by rw [here]; rfl, List.not_mem_nil⟩
    · rename_i other
      obtain ⟨⟨start, rest⟩, later, same⟩ := Option.map_eq_some_iff.mp found
      cases same
      obtain ⟨parts, absent⟩ := ih later
      refine ⟨by rw [parts]; rfl, ?_⟩
      rw [List.mem_cons, not_or]
      exact ⟨Ne.symm other, absent⟩

/-- The text is three parts with one separator between each two, none in the first two parts. -/
theorem splitn_three_iff {first second third : List Char} :
    splitn separator 3 text = [first, second, third] ↔
      text = first ++ separator :: (second ++ separator :: third) ∧ separator ∉ first ∧ separator ∉ second := by
  constructor
  · intro cut
    cases found : splitOnce separator text with
    | none =>
      simp only [splitn, found] at cut
      cases cut
    | some parts =>
      simp only [splitn, found] at cut
      cases foundAgain : splitOnce separator parts.2 with
      | none =>
        rw [foundAgain] at cut
        cases cut
      | some more =>
        rw [foundAgain] at cut
        cases cut
        obtain ⟨split, absent⟩ := splitOnce_eq_some found
        obtain ⟨splitAgain, absentAgain⟩ := splitOnce_eq_some foundAgain
        exact ⟨by rw [split, splitAgain], absent, absentAgain⟩
  · rintro ⟨split, absent, absentAgain⟩
    rw [split, splitn, splitOnce_append absent]
    simp only [splitn, splitOnce_append absentAgain]

theorem splitOnce_of_notMem (absent : separator ∉ text) : splitOnce separator text = none := by
  induction text with
  | nil => rfl
  | cons c text ih =>
    rw [List.mem_cons, not_or] at absent
    rw [splitOnce, if_neg (Ne.symm absent.1), ih absent.2]
    rfl

theorem notMem_of_splitOnce (missing : splitOnce separator text = none) : separator ∉ text := by
  intro member
  obtain ⟨before, after, same, absent⟩ := List.eq_append_cons_of_mem member
  rw [same, splitOnce_append absent] at missing
  cases missing

end Splitting

/-! Words. -/

theorem takeWhile_cut (stays : Char → Bool) (text : List Char) :
    ∃ behind, text = text.takeWhile stays ++ behind ∧ text.drop (text.takeWhile stays).length = behind ∧
      ∀ c ∈ behind.head?, stays c = false := by
  have cut : text.takeWhile stays ++ text.dropWhile stays = text := List.takeWhile_append_dropWhile
  refine ⟨text.dropWhile stays, cut.symm, ?_, ?_⟩
  · have dropped := congrArg (List.drop (text.takeWhile stays).length) cut
    rw [List.drop_left] at dropped
    exact dropped.symm
  · intro c member
    have stops := List.head?_dropWhile_not stays text
    rw [member] at stops
    simpa using stops

/-- A word of a text: it is not empty and has no whitespace. -/
def IsWord (word : List Char) : Prop := word ≠ [] ∧ ∀ c ∈ word, isWhitespace c = false

theorem plain_of_all {text : List Char} (checked : text.all (!isWhitespace ·) = true) :
    ∀ c ∈ text, isWhitespace c = false := by
  intro c member
  simpa using List.all_eq_true.mp checked c member

theorem isWord_of_mem {text word : List Char} (member : word ∈ splitWhitespace text) : IsWord word := by
  obtain ⟨piece, filled⟩ := List.mem_filter.mp member
  refine ⟨by simpa using filled, ?_⟩
  intro c inside
  exact separates_of_mem_splitWhen piece inside

theorem splitWhitespace_word {word : List Char} (isWord : IsWord word) : splitWhitespace word = [word] := by
  unfold splitWhitespace
  rw [splitWhen_whole isWord.2]
  simp [isWord.1]

theorem splitWhitespace_append_cons {c : Char} (white : isWhitespace c = true) (before after : List Char) :
    splitWhitespace (before ++ c :: after) = splitWhitespace before ++ splitWhitespace after := by
  unfold splitWhitespace
  rw [splitWhen_append_cons white, List.filter_append]

theorem splitWhitespace_append {word : List Char} (isWord : IsWord word) (text : List Char) :
    splitWhitespace (word ++ ' ' :: text) = word :: splitWhitespace text := by
  rw [splitWhitespace_append_cons (by decide), splitWhitespace_word isWord]
  rfl

theorem splitWhitespace_lead {lead : List Char} (white : ∀ c ∈ lead, isWhitespace c = true) (text : List Char) :
    splitWhitespace (lead ++ text) = splitWhitespace text := by
  induction lead with
  | nil => rfl
  | cons c lead ih =>
    have cut := splitWhitespace_append_cons (white c (List.mem_cons_self ..)) [] (lead ++ text)
    rw [List.nil_append] at cut
    rw [List.cons_append, cut, ih fun d member => white d (List.mem_cons_of_mem _ member)]
    rfl

/-- A text begins with whitespace, then a word if there is one, then whitespace again or nothing. -/
theorem word_cut (text : List Char) : ∃ lead word behind, text = lead ++ (word ++ behind) ∧
    (∀ c ∈ lead, isWhitespace c = true) ∧ (∀ c ∈ word, isWhitespace c = false) ∧
    (∀ c ∈ behind.head?, isWhitespace c = true) ∧ (word = [] → behind = []) := by
  obtain ⟨rest, outer, _, starts⟩ := takeWhile_cut isWhitespace text
  obtain ⟨behind, inner, _, ends⟩ := takeWhile_cut (!isWhitespace ·) rest
  refine ⟨text.takeWhile isWhitespace, rest.takeWhile (!isWhitespace ·), behind, ?_, ?_, ?_, ?_, ?_⟩
  · rw [← inner]
    exact outer
  · intro c member
    exact List.mem_takeWhile_imp member
  · intro c member
    simpa using List.mem_takeWhile_imp member
  · intro c member
    simpa using ends c member
  · intro empty
    rw [empty, List.nil_append] at inner
    rw [← inner]
    cases rest with
    | nil => rfl
    | cons c rest =>
      have word := starts c rfl
      rw [List.takeWhile_cons_of_pos (by simpa using word)] at empty
      cases empty

theorem splitWhitespace_cut {lead word behind : List Char} (white : ∀ c ∈ lead, isWhitespace c = true)
    (isWord : IsWord word) (ends : ∀ c ∈ behind.head?, isWhitespace c = true) :
    splitWhitespace (lead ++ (word ++ behind)) = word :: splitWhitespace behind := by
  rw [splitWhitespace_lead white]
  cases behind with
  | nil =>
    rw [List.append_nil, splitWhitespace_word isWord]
    rfl
  | cons c behind =>
    have here := ends c rfl
    have after := @splitWhitespace_lead [c] (by simpa using here) behind
    rw [splitWhitespace_append_cons here, splitWhitespace_word isWord, ← after]
    rfl

theorem white_of_splitWhitespace {text : List Char} (empty : splitWhitespace text = []) :
    ∀ c ∈ text, isWhitespace c = true := by
  obtain ⟨lead, word, behind, same, white, whole, ends, ended⟩ := word_cut text
  by_cases blank : word = []
  · rw [same, blank, ended blank, List.append_nil, List.append_nil]
    exact white
  · rw [same, splitWhitespace_cut white ⟨blank, whole⟩ ends] at empty
    cases empty

/-! Lines. -/

theorem lines_append {line : List Char} (whole : '\n' ∉ line) (text : List Char) :
    lines (line ++ '\r' :: '\n' :: text) = line :: lines text := by
  have cut : split '\n' (line ++ '\r' :: '\n' :: text) = (line ++ ['\r']) :: split '\n' text := by
    rw [split, List.append_cons line]
    apply splitWhen_append
    · intro c member
      have other : c ≠ '\n' := by
        intro same
        rw [same, List.mem_append, List.mem_singleton] at member
        rcases member with inside | last
        · exact whole inside
        · cases last
      simpa using other
    · simp
  obtain ⟨next, later, same⟩ := List.exists_cons_of_ne_nil (@split_ne_nil '\n' text)
  unfold lines
  rw [cut, same]
  simp [stripSuffix]

theorem splitCrlf_crlf (text : List Char) : splitCrlf (crlfText ++ text) = [] :: splitCrlf text := rfl

theorem splitCrlf_cons {c : Char} {text : List Char} (inside : ¬ crlfText <+: c :: text) :
    splitCrlf (c :: text) = (splitCrlf text).modifyHead (c :: ·) := by
  rw [splitCrlf]
  intro rest same following
  apply inside
  rw [same, following]
  exact ⟨rest, rfl⟩

/-- Induction over a text by its line breaks. -/
theorem crlf_induction {motive : List Char → Prop} (nil : motive [])
    (crlf : ∀ text, motive text → motive (crlfText ++ text))
    (cons : ∀ c text, ¬ crlfText <+: c :: text → motive text → motive (c :: text)) (text : List Char) : motive text := by
  induction text using splitCrlf.induct with
  | case1 => exact nil
  | case2 text ih => exact crlf text ih
  | case3 c text other ih =>
    refine cons c text ?_ ih
    rintro ⟨rest, same⟩
    cases same
    exact other rest rfl rfl

theorem splitCrlf_ne_nil (text : List Char) : splitCrlf text ≠ [] := by
  induction text using crlf_induction with
  | nil => exact List.cons_ne_nil _ _
  | crlf text ih => exact List.cons_ne_nil _ _
  | cons c text inside ih =>
    rw [splitCrlf_cons inside]
    simpa using ih

theorem firstLine_of_cut {text line : List Char} {lines : List (List Char)} (cut : splitCrlf text = line :: lines) :
    firstLine text = line := by
  rw [firstLine, cut]
  rfl

theorem firstLine_cons {c : Char} {text : List Char} (inside : ¬ crlfText <+: c :: text) :
    firstLine (c :: text) = c :: firstLine text := by
  obtain ⟨line, lines, same⟩ := List.exists_cons_of_ne_nil (splitCrlf_ne_nil text)
  have longer : splitCrlf (c :: text) = (c :: line) :: lines := by
    rw [splitCrlf_cons inside, same]
    rfl
  rw [firstLine_of_cut longer, firstLine_of_cut same]

theorem firstLine_crlf (text : List Char) : firstLine (crlfText ++ text) = [] := rfl

theorem firstLine_append (before after : List Char) :
    firstLine (before ++ (crlfText ++ after)) = firstLine (before ++ crlfText) := by
  induction before with
  | nil => rfl
  | cons c before ih =>
    by_cases here : crlfText <+: c :: (before ++ crlfText)
    · have there : crlfText <+: c :: (before ++ (crlfText ++ after)) := by
        apply here.trans
        rw [← List.append_assoc, ← List.cons_append]
        exact List.prefix_append _ _
      obtain ⟨rest, same⟩ := here
      obtain ⟨restAfter, sameAfter⟩ := there
      rw [List.cons_append, List.cons_append, ← same, ← sameAfter, firstLine_crlf, firstLine_crlf]
    · have there : ¬ crlfText <+: c :: (before ++ (crlfText ++ after)) := by
        intro found
        apply here
        apply List.prefix_of_prefix_length_le found
        · rw [← List.append_assoc, ← List.cons_append]
          exact List.prefix_append _ _
        · simp [crlfText]
      rw [List.cons_append, List.cons_append, firstLine_cons there, firstLine_cons here, ih]

theorem firstLine_prefix (text : List Char) : firstLine text <+: text := by
  induction text with
  | nil => exact List.nil_prefix
  | cons c text ih =>
    by_cases here : crlfText <+: c :: text
    · obtain ⟨rest, same⟩ := here
      rw [← same, firstLine_crlf]
      exact List.nil_prefix
    · rw [firstLine_cons here, List.cons_prefix_cons]
      exact ⟨rfl, ih⟩

theorem crlf_notInfix_firstLine (text : List Char) : ¬ crlfText <:+: firstLine text := by
  induction text with
  | nil =>
    rw [show firstLine [] = [] from rfl, List.infix_nil]
    exact List.cons_ne_nil _ _
  | cons c text ih =>
    by_cases here : crlfText <+: c :: text
    · obtain ⟨rest, same⟩ := here
      rw [← same, firstLine_crlf, List.infix_nil]
      exact List.cons_ne_nil _ _
    · rw [firstLine_cons here, List.infix_cons_iff, not_or]
      refine ⟨fun starts => here ?_, ih⟩
      exact starts.trans (List.cons_prefix_cons.mpr ⟨rfl, firstLine_prefix text⟩)

theorem firstLine_whole {line : List Char} (whole : ¬ crlfText <:+: line) (text : List Char) :
    firstLine (line ++ (crlfText ++ text)) = line := by
  rw [firstLine_append]
  induction line with
  | nil => rfl
  | cons c line ih =>
    rw [List.infix_cons_iff, not_or] at whole
    have inside : ¬ crlfText <+: c :: (line ++ crlfText) := by
      rintro ⟨rest, same⟩
      cases line with
      | nil => cases same
      | cons d line =>
        cases same
        exact whole.1 ⟨line, rfl⟩
    rw [List.cons_append, firstLine_cons inside, ih whole.2]

/-- A line break in the middle of a text cuts it in two, whatever the parts are. -/
theorem splitCrlf_append (before after : List Char) :
    splitCrlf (before ++ (crlfText ++ after)) = splitCrlf before ++ splitCrlf after := by
  induction before using crlf_induction with
  | nil => rfl
  | crlf text ih =>
    rw [List.append_assoc, splitCrlf_crlf, splitCrlf_crlf, ih]
    rfl
  | cons c text inside ih =>
    have there : ¬ crlfText <+: c :: (text ++ (crlfText ++ after)) := by
      rintro ⟨rest, same⟩
      cases text with
      | nil => cases same
      | cons d text =>
        cases same
        exact inside ⟨text, rfl⟩
    obtain ⟨line, lines, same⟩ := List.exists_cons_of_ne_nil (splitCrlf_ne_nil text)
    rw [List.cons_append, splitCrlf_cons there, splitCrlf_cons inside, ih, same]
    rfl

theorem splitCrlf_whole {line : List Char} (whole : ¬ crlfText <:+: line) : splitCrlf line = [line] := by
  induction line with
  | nil => rfl
  | cons c line ih =>
    rw [List.infix_cons_iff, not_or] at whole
    rw [splitCrlf_cons whole.1, ih whole.2]
    rfl

theorem splitCrlf_eq_cons {text line : List Char} {more : List (List Char)} (cut : splitCrlf text = line :: more) :
    (more = [] ∧ text = line) ∨ ∃ rest, text = line ++ (crlfText ++ rest) ∧ splitCrlf rest = more := by
  induction text using crlf_induction generalizing line more with
  | nil =>
    cases cut
    exact .inl ⟨rfl, rfl⟩
  | crlf text =>
    rw [splitCrlf_crlf] at cut
    cases cut
    exact .inr ⟨text, rfl, rfl⟩
  | cons c text inside ih =>
    obtain ⟨first, later, same⟩ := List.exists_cons_of_ne_nil (splitCrlf_ne_nil text)
    rw [splitCrlf_cons inside, same] at cut
    cases cut
    rcases ih same with ⟨rfl, rfl⟩ | ⟨rest, rfl, behind⟩
    · exact .inl ⟨rfl, rfl⟩
    · exact .inr ⟨rest, rfl, behind⟩

/-- Where no line has a line feed in it, the lines are those between the line breaks. -/
theorem lines_eq_splitCrlf {text : List Char} (clean : ∀ line ∈ splitCrlf text, '\n' ∉ line) :
    lines (text ++ crlfText) = splitCrlf text := by
  generalize cut : splitCrlf text = pieces at clean
  induction pieces generalizing text with
  | nil => exact absurd cut (splitCrlf_ne_nil text)
  | cons line more ih =>
    have whole := clean line List.mem_cons_self
    rcases splitCrlf_eq_cons cut with ⟨rfl, rfl⟩ | ⟨rest, rfl, behind⟩
    · exact lines_append whole []
    · rw [← ih behind fun other member => clean other (List.mem_cons_of_mem _ member), List.append_assoc, List.append_assoc]
      exact lines_append whole (rest ++ crlfText)

theorem crlf_notInfix_line {text line : List Char} (member : line ∈ splitCrlf text) : ¬ crlfText <:+: line := by
  induction text using crlf_induction generalizing line with
  | nil =>
    rw [List.mem_singleton.mp member, List.infix_nil]
    exact List.cons_ne_nil _ _
  | crlf text ih =>
    rw [splitCrlf_crlf] at member
    rcases List.mem_cons.mp member with here | later
    · rw [here, List.infix_nil]
      exact List.cons_ne_nil _ _
    · exact ih later
  | cons c text inside ih =>
    have first := crlf_notInfix_firstLine (c :: text)
    obtain ⟨next, lines, same⟩ := List.exists_cons_of_ne_nil (splitCrlf_ne_nil text)
    rw [firstLine_cons inside, firstLine_of_cut same] at first
    rw [splitCrlf_cons inside, same] at member
    rcases List.mem_cons.mp member with head | later
    · rw [head]
      exact first
    · exact ih (by rw [same]; exact List.mem_cons_of_mem _ later)

theorem crlf_of_firstLine {text : List Char} (empty : firstLine text = []) : crlfText <+: text ++ crlfText := by
  cases text with
  | nil => exact List.prefix_refl _
  | cons c text =>
    by_cases here : crlfText <+: c :: text
    · exact here.trans (List.prefix_append _ _)
    · rw [firstLine_cons here] at empty
      cases empty

theorem blank_of_mem {text : List Char} (blank : [] ∈ (splitCrlf text).tail) :
    crlfText ++ crlfText <:+: text ++ crlfText := by
  induction text using crlf_induction with
  | nil => cases blank
  | crlf text ih =>
    rw [splitCrlf_crlf, List.tail_cons] at blank
    obtain ⟨line, lines, cut⟩ := List.exists_cons_of_ne_nil (splitCrlf_ne_nil text)
    rw [cut] at blank ih
    rw [List.append_assoc]
    rcases List.mem_cons.mp blank with first | later
    · have starts := crlf_of_firstLine ((firstLine_of_cut cut).trans first.symm)
      exact ((List.prefix_append_right_inj crlfText).mpr starts).isInfix
    · exact (ih later).trans (List.suffix_append _ _).isInfix
  | cons c text inside ih =>
    rw [splitCrlf_cons inside, List.tail_modifyHead] at blank
    exact (ih blank).trans ⟨[c], [], by simp⟩

/-- A text and the line break behind it hold a blank line exactly if a line behind the first is empty. -/
theorem blank_iff {text : List Char} : crlfText ++ crlfText <:+: text ++ crlfText ↔ [] ∈ (splitCrlf text).tail := by
  constructor
  · rintro ⟨before, after, same⟩
    obtain ⟨line, lines, cut⟩ := List.exists_cons_of_ne_nil (splitCrlf_ne_nil text)
    obtain ⟨first, more, cutBefore⟩ := List.exists_cons_of_ne_nil (splitCrlf_ne_nil before)
    have ended : splitCrlf (text ++ crlfText) = line :: (lines ++ [[]]) := by
      rw [← List.append_nil crlfText, splitCrlf_append, cut]
      rfl
    rw [← same, List.append_assoc, List.append_assoc, splitCrlf_append, cutBefore] at ended
    have later : more ++ [] :: splitCrlf after = lines ++ [[]] := (List.cons.inj ended).2
    have shorter := congrArg List.dropLast later
    rw [List.dropLast_concat, List.dropLast_append_of_ne_nil (List.cons_ne_nil _ _),
      List.dropLast_cons_of_ne_nil (splitCrlf_ne_nil after)] at shorter
    rw [cut, List.tail_cons, ← shorter]
    simp
  · exact blank_of_mem

section Position

variable {α : Type} [DecidableEq α] {pattern held total : List α} {offset : Nat}

theorem position_eq_some_iff : position pattern total = some offset ↔
    pattern <+: total.drop offset ∧ ∀ earlier < offset, ¬ pattern <+: total.drop earlier := by
  induction total generalizing offset with
  | nil =>
    simp only [position, List.isEmpty_iff, List.drop_nil, List.prefix_nil]
    by_cases empty : pattern = []
    · simp only [empty, if_true, Option.some.injEq, true_and, not_true_eq_false, imp_false, Nat.not_lt]
      exact ⟨fun zero => by omega, fun bound => (Nat.le_zero.mp (bound 0)).symm⟩
    · simp only [empty, if_false, false_and, reduceCtorEq]
  | cons item items ih =>
    by_cases here : pattern <+: item :: items
    · simp only [position, List.isPrefixOf_iff_prefix, here, if_true, Option.some.injEq]
      refine ⟨fun zero => ?_, fun ⟨_, first⟩ => ?_⟩
      · rw [← zero]
        exact ⟨here, fun earlier bound => absurd bound (Nat.not_lt_zero _)⟩
      · by_contra later
        exact first 0 (by omega) here
    · simp only [position, List.isPrefixOf_iff_prefix, here, if_false, Option.map_eq_some_iff]
      refine ⟨fun ⟨behind, found, shifted⟩ => ?_, fun ⟨found, first⟩ => ?_⟩
      · obtain ⟨there, first⟩ := ih.mp found
        rw [← shifted]
        refine ⟨there, fun earlier bound => ?_⟩
        cases earlier with
        | zero => exact here
        | succ earlier => exact first earlier (by omega)
      · cases offset with
        | zero => exact absurd found here
        | succ behind =>
          exact ⟨behind, ih.mpr ⟨found, fun earlier bound => first (earlier + 1) (by omega)⟩, rfl⟩

theorem position_eq_none_iff :
    position pattern total = none ↔ ∀ offset, ¬ pattern <+: total.drop offset := by
  refine ⟨fun missing offset there => ?_, fun nowhere => ?_⟩
  · have somewhere : ∃ place, pattern <+: total.drop place := ⟨offset, there⟩
    have found := position_eq_some_iff.2
      ⟨Nat.find_spec somewhere, fun earlier bound => Nat.find_min somewhere bound⟩
    rw [missing] at found
    cases found
  · cases found : position pattern total with
    | none => rfl
    | some offset => exact absurd (position_eq_some_iff.1 found).1 (nowhere offset)

theorem position_cut (found : position pattern total = some offset) :
    ∃ before after, total = before ++ (pattern ++ after) ∧ before.length = offset ∧
      total.take offset = before ∧ total.drop (offset + pattern.length) = after := by
  obtain ⟨⟨after, there⟩, first⟩ := position_eq_some_iff.1 found
  have bound : offset ≤ total.length := by
    by_contra beyond
    apply first total.length (by omega)
    rw [List.drop_eq_nil_of_le (by omega)] at there
    rw [List.append_eq_nil_iff.mp there |>.1]
    exact List.nil_prefix
  refine ⟨total.take offset, after, ?_, ?_, rfl, ?_⟩
  · rw [there, List.take_append_drop]
  · rw [List.length_take]
    omega
  · rw [← List.drop_drop, ← there, List.drop_left]

theorem position_reaches (found : position pattern total = some offset) : offset + pattern.length ≤ total.length := by
  obtain ⟨before, after, whole, length, _⟩ := position_cut found
  rw [whole, ← length]
  simp only [List.length_append]
  omega

theorem position_none_iff_notInfix : position pattern total = none ↔ ¬ pattern <:+: total := by
  rw [position_eq_none_iff, List.infix_iff_prefix_suffix]
  constructor
  · rintro nowhere ⟨tail, starts, suffix⟩
    apply nowhere (total.length - tail.length)
    rwa [← List.suffix_iff_eq_drop.mp suffix]
  · intro absent offset here
    exact absent ⟨total.drop offset, here, List.drop_suffix _ _⟩

theorem position_lead {first : α} {more before : List α} (absent : first ∉ before) (after : List α) :
    position (first :: more) (before ++ after) = (position (first :: more) after).map (· + before.length) := by
  induction before with
  | nil => simp
  | cons item before ih =>
    rw [List.mem_cons, not_or] at absent
    rw [List.cons_append, position, if_neg, ih absent.2, Option.map_map]
    · rfl
    · rw [List.isPrefixOf_iff_prefix, List.cons_prefix_cons]
      exact fun here => absent.1 here.1

theorem position_of_notMem {first : α} {more before : List α} (absent : first ∉ before) (after : List α) :
    position (first :: more) (before ++ (first :: more ++ after)) = some before.length := by
  have here : position (first :: more) (first :: more ++ after) = some 0 := by
    rw [List.cons_append, position, if_pos]
    rw [List.isPrefixOf_iff_prefix, ← List.cons_append]
    exact List.prefix_append _ _
  rw [position_lead absent, here, Option.map_some, Nat.zero_add]

theorem position_of_prefix (found : position pattern total = some offset) (part : held <+: total)
    (whole : offset + pattern.length ≤ held.length) : position pattern held = some offset := by
  obtain ⟨there, first⟩ := position_eq_some_iff.1 found
  refine position_eq_some_iff.2
    ⟨?_, fun earlier bound here => first earlier bound (here.trans (List.IsPrefix.drop part _))⟩
  apply List.prefix_of_prefix_length_le there (List.IsPrefix.drop part offset)
  rw [List.length_drop]
  omega

theorem position_append (found : position pattern held = some offset) (more : List α) :
    position pattern (held ++ more) = some offset := by
  obtain ⟨before, after, parts, length, _⟩ := position_cut found
  obtain ⟨there, first⟩ := position_eq_some_iff.1 found
  have bound : offset + pattern.length ≤ held.length := by
    rw [parts, List.length_append, List.length_append]
    omega
  apply position_eq_some_iff.2
  constructor
  · rw [List.drop_append_of_le_length (by omega)]
    exact there.trans (List.prefix_append _ _)
  · intro earlier before here
    apply first earlier before
    apply List.prefix_of_prefix_length_le here
    · rw [List.drop_append_of_le_length (by omega)]
      exact List.prefix_append _ _
    · rw [List.length_drop]
      omega

theorem position_trail {trail : List α} (filled : pattern ≠ []) (apart : ∀ item ∈ pattern, item ∉ trail) :
    position pattern (held ++ trail) = position pattern held := by
  cases found : position pattern held with
  | some offset => exact position_append found trail
  | none =>
    rw [position_none_iff_notInfix] at found ⊢
    cases trail with
    | nil => rwa [List.append_nil]
    | cons item trail =>
      intro within
      have outside : item ∉ pattern := fun member => apart item member (List.mem_cons_self ..)
      rcases infix_append_cons outside within with before | behind
      · exact found before
      · obtain ⟨first, more, same⟩ := List.exists_cons_of_ne_nil filled
        have member := behind.subset (show first ∈ pattern by rw [same]; simp)
        exact apart first (by rw [same]; simp) (List.mem_cons_of_mem _ member)

theorem position_of_short (filled : pattern ≠ []) (found : position pattern total = some offset)
    (part : held <+: total) (short : held.length < offset + pattern.length) :
    position pattern held = none := by
  obtain ⟨_, first⟩ := position_eq_some_iff.1 found
  refine position_eq_none_iff.2 fun place here => ?_
  have late : offset ≤ place := by
    by_contra early
    exact first place (by omega) (here.trans (List.IsPrefix.drop part _))
  have length := here.length_le
  have positive := List.length_pos_iff.mpr filled
  rw [List.length_drop] at length
  omega

theorem position_concat {items : List α} (item : α) (missing : position pattern items = none) :
    (pattern <:+ items ++ [item] →
      position pattern (items ++ [item]) = some (items.length + 1 - pattern.length)) ∧
    (¬ pattern <:+ items ++ [item] → position pattern (items ++ [item]) = none) := by
  have nowhere := position_eq_none_iff.1 missing
  have at_end : ∀ place, pattern <+: (items ++ [item]).drop place → items.length + 1 ≤ place + pattern.length := by
    intro place here
    by_contra early
    have part : items.drop place <+: (items ++ [item]).drop place :=
      List.IsPrefix.drop (List.prefix_append _ _) place
    apply nowhere place
    apply List.prefix_of_prefix_length_le here part
    rw [List.length_drop]
    omega
  refine ⟨fun ends => ?_, fun open_end => position_eq_none_iff.2 fun place here => open_end ?_⟩
  · have same := List.suffix_iff_eq_drop.mp ends
    rw [List.length_append, List.length_singleton] at same
    have there : pattern <+: (items ++ [item]).drop (items.length + 1 - pattern.length) := by
      rw [← same]
    refine position_eq_some_iff.2 ⟨there, fun earlier bound here => ?_⟩
    have late := at_end earlier here
    omega
  · have late := at_end place here
    have whole : pattern = (items ++ [item]).drop place := by
      apply here.eq_of_length_le
      rw [List.length_drop, List.length_append, List.length_singleton]
      omega
    rw [whole]
    exact List.drop_suffix _ _

/-- A pattern stands right behind bytes that do not hold it even with all of it but the last. -/
theorem position_behind {before : List α} (filled : pattern ≠ [])
    (missing : position pattern (before ++ pattern.dropLast) = none) :
    position pattern (before ++ pattern) = some before.length := by
  have positive := List.length_pos_iff.mpr filled
  refine position_eq_some_iff.2 ⟨by rw [List.drop_left], fun earlier bound here => ?_⟩
  refine position_eq_none_iff.1 missing earlier (List.prefix_of_prefix_length_le here ?_ ?_)
  · exact List.IsPrefix.drop ((List.prefix_append_right_inj before).mpr (List.dropLast_prefix pattern)) earlier
  · rw [List.length_drop, List.length_append, List.length_dropLast]
    omega

end Position

end Text
