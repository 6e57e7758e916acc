import OpenShell.Sandbox.PercentCodecs

namespace OpenShell.Sandbox

open Text

/-! Percent signs that begin no escape. -/

/-- Every percent sign with two hexadecimal digits behind it is replaced, and every other byte is copied. -/
def decodeEscapes : List UInt8 → List UInt8
  | [] => []
  | 0x25 :: high :: low :: bytes =>
    match escapedByte high low with
    | some value => value :: decodeEscapes bytes
    | none => 0x25 :: decodeEscapes (high :: low :: bytes)
  | byte :: bytes => byte :: decodeEscapes bytes

def startsEscape : List UInt8 → Bool
  | 0x25 :: high :: low :: _ => (escapedByte high low).isSome
  | _ => false

/-- The percent signs that are taken with the two bytes behind them, though these are no digits, have no sign and digit
there, and no escape begins in what is taken with them. -/
def inStep : List UInt8 → Bool
  | [] => true
  | 0x25 :: high :: low :: bytes =>
    ((escapedByte high low).isSome ||
      (hexByte high low).isNone && !startsEscape (high :: low :: bytes) && !startsEscape (low :: bytes)) && inStep bytes
  | [0x25, _] => true
  | _ :: bytes => inStep bytes

theorem decodeEscapes_copied {byte : UInt8} {bytes : List UInt8} (plain : startsEscape (byte :: bytes) = false) :
    decodeEscapes (byte :: bytes) = byte :: decodeEscapes bytes := by
  by_cases percent : byte = 0x25
  · subst percent
    rcases bytes with _ | ⟨high, _ | ⟨low, bytes⟩⟩
    · rfl
    · rfl
    · rw [startsEscape, Option.isSome_eq_false_iff, Option.isNone_iff_eq_none] at plain
      rw [decodeEscapes, plain]
  · rw [decodeEscapes]
    intro high low rest same
    exact absurd same percent

theorem startsEscape_other {byte : UInt8} (other : byte ≠ 0x25) (bytes : List UInt8) : startsEscape (byte :: bytes) = false := by
  rw [startsEscape]
  intro high low rest same
  exact other (List.cons.inj same).1

theorem startsEscape_short {bytes : List UInt8} (short : bytes.length < 3) : startsEscape bytes = false := by
  rw [startsEscape]
  rintro high low rest rfl
  simp at short
  omega

theorem decodeEscapes_escape {high low value : UInt8} (read : escapedByte high low = some value) (bytes : List UInt8) :
    decodeEscapes (0x25 :: high :: low :: bytes) = value :: decodeEscapes bytes := by
  rw [decodeEscapes, read]

/-- A digit is ASCII and neither a percent sign nor a plus sign. -/
def Digit (byte : UInt8) : Prop := byte < 0x80 ∧ byte ≠ 0x25 ∧ byte ≠ 0x2B

theorem digits_of_escape {high low value : UInt8} (read : escapedByte high low = some value) :
    Digit high ∧ Digit low := by
  unfold escapedByte at read
  obtain ⟨first, readHigh, read⟩ := Option.bind_eq_some_iff.mp read
  obtain ⟨second, readLow, _⟩ := Option.bind_eq_some_iff.mp read
  exact ⟨(nibble_cases readHigh).2, (nibble_cases readLow).2⟩

theorem escape_of_startsEscape {byte : UInt8} {bytes : List UInt8} (starts : startsEscape (byte :: bytes) = true) :
    byte = 0x25 ∧ ∃ high low value rest, bytes = high :: low :: rest ∧ escapedByte high low = some value := by
  by_cases percent : byte = 0x25
  · subst percent
    rcases bytes with _ | ⟨high, _ | ⟨low, rest⟩⟩
    · cases starts
    · cases starts
    · obtain ⟨value, read⟩ := Option.isSome_iff_exists.mp starts
      exact ⟨rfl, high, low, value, rest, rfl, read⟩
  · rw [startsEscape] at starts
    · cases starts
    · intro high low rest same
      exact percent (List.cons.inj same).1

/-! The two decoders side by side. -/

/-- What both make of the next bytes. -/
inductive Scan (bytes : List UInt8) : Prop
  | done (empty : bytes = [])
  | same (common rest : List UInt8) (shorter : rest.length < bytes.length)
      (sent : percentDecodeBytes bytes = common ++ percentDecodeBytes rest)
      (meant : decodeEscapes bytes = common ++ decodeEscapes rest) (step : inStep bytes = inStep rest)
  | sign (low value : UInt8) (rest : List UInt8) (digit : Digit low) (small : value < 16)
      (sent : percentDecodeBytes bytes = value :: percentDecodeBytes rest)
      (meant : decodeEscapes bytes = 0x25 :: 0x2B :: low :: decodeEscapes rest) (out : inStep bytes = false)
  | missed (common : List UInt8) (high low value : UInt8) (rest : List UInt8) (shorter : rest.length < bytes.length)
      (digits : Digit high ∧ Digit low)
      (sent : percentDecodeBytes bytes = common ++ 0x25 :: high :: low :: percentDecodeBytes rest)
      (meant : decodeEscapes bytes = common ++ value :: decodeEscapes rest) (out : inStep bytes = false)

theorem scan_stray {high low : UInt8} {bytes : List UInt8} (stray : escapedByte high low = none)
    (unread : hexByte high low = none) : Scan (0x25 :: high :: low :: bytes) := by
  have sent := percentDecodeBytes_unread unread bytes
  have meant : decodeEscapes (0x25 :: high :: low :: bytes) = 0x25 :: decodeEscapes (high :: low :: bytes) := by
    rw [decodeEscapes, stray]
  cases first : startsEscape (high :: low :: bytes) with
  | true =>
    obtain ⟨rfl, low', next, value, rest, same, read⟩ := escape_of_startsEscape first
    cases same
    have digits := digits_of_escape read
    refine .missed [0x25] low next value rest (by simp; omega) digits ?_ ?_ ?_
    · rw [sent, percentDecodeBytes_other digits.2.2.1]
      rfl
    · rw [meant, decodeEscapes_escape read]
      rfl
    · rw [inStep, stray, first]
      simp
  | false =>
    cases second : startsEscape (low :: bytes) with
    | true =>
      obtain ⟨rfl, next, last, value, rest, rfl, read⟩ := escape_of_startsEscape second
      have digits := digits_of_escape read
      refine .missed [0x25, high] next last value rest (by simp; omega) digits ?_ ?_ ?_
      · rw [sent, percentDecodeBytes_other digits.1.2.1, percentDecodeBytes_other digits.2.2.1]
        rfl
      · rw [meant, decodeEscapes_copied first, decodeEscapes_escape read]
        rfl
      · rw [inStep, stray, second]
        simp
    | false =>
      refine .same [0x25, high, low] bytes (by simp; omega) sent ?_ ?_
      · rw [meant, decodeEscapes_copied first, decodeEscapes_copied second]
        rfl
      · rw [inStep, stray, unread, first, second]
        simp

theorem scan_cases (bytes : List UInt8) : Scan bytes := by
  rcases bytes with _ | ⟨byte, bytes⟩
  · exact .done rfl
  · by_cases percent : byte = 0x25
    · subst percent
      rcases bytes with _ | ⟨high, _ | ⟨low, bytes⟩⟩
      · exact .same [0x25] [] (by simp) rfl rfl rfl
      · refine .same [0x25, high] [] (by simp) rfl ?_ rfl
        rw [decodeEscapes_copied rfl, decodeEscapes_copied (startsEscape_short (by simp))]
        rfl
      · cases read : escapedByte high low with
        | some value =>
          refine .same [value] bytes (by simp; omega) ?_ ?_ ?_
          · rw [percentDecodeBytes, hexByte_digits read]
            rfl
          · rw [decodeEscapes_escape read]
            rfl
          · rw [inStep, read]
            simp
        | none =>
          cases sent : hexByte high low with
          | none => exact scan_stray read sent
          | some value =>
            have sign : high = 0x2B := by
              by_contra other
              rw [hexByte_eq, if_neg other, read] at sent
              cases sent
            subst sign
            rw [hexByte_eq, if_pos rfl] at sent
            obtain ⟨small, digit⟩ := nibble_cases sent
            refine .sign low value bytes digit small ?_ ?_ ?_
            · rw [percentDecodeBytes, hexByte_eq, if_pos rfl, sent]
            · rw [decodeEscapes, read, decodeEscapes_copied (by rfl), decodeEscapes_copied (startsEscape_other digit.2.1 _)]
            · rw [inStep, read, hexByte_eq, if_pos rfl, sent]
              simp
    · refine .same [byte] bytes (by simp) ?_ ?_ ?_
      · rw [percentDecodeBytes_other percent]
        rfl
      · rw [decodeEscapes_copied (startsEscape_other percent _)]
        rfl
      · rw [inStep]
        · intro high low rest same
          exact absurd same percent
        · intro high same
          exact absurd same percent

theorem percentDecodeBytes_inStep {bytes : List UInt8} (step : inStep bytes = true) :
    percentDecodeBytes bytes = decodeEscapes bytes := by
  induction length : bytes.length using Nat.strong_induction_on generalizing bytes with
  | _ size ih =>
    cases scan_cases bytes with
    | done empty =>
      rw [empty]
      rfl
    | same common rest shorter sent meant same => rw [sent, meant, ih rest.length (by omega) (same ▸ step) rfl]
    | sign low value rest digit small sent meant out =>
      rw [step] at out
      cases out
    | missed common high low value rest shorter digits sent meant out =>
      rw [step] at out
      cases out

/-! The ASCII of the two results. -/

def asciiOnly (bytes : List UInt8) : List UInt8 := bytes.filter fun byte => byte < 0x80

theorem asciiOnly_append (first second : List UInt8) : asciiOnly (first ++ second) = asciiOnly first ++ asciiOnly second :=
  List.filter_append ..

theorem asciiOnly_cons {byte : UInt8} (ascii : byte < 0x80) (bytes : List UInt8) :
    asciiOnly (byte :: bytes) = byte :: asciiOnly bytes :=
  List.filter_cons_of_pos (by simpa using ascii)

theorem asciiOnly_wide {byte : UInt8} (wide : ¬byte < 0x80) (bytes : List UInt8) :
    asciiOnly (byte :: bytes) = asciiOnly bytes :=
  List.filter_cons_of_neg (by simpa using wide)

theorem asciiOnly_missed {high low : UInt8} (digits : Digit high ∧ Digit low) (common rest : List UInt8) :
    asciiOnly (common ++ 0x25 :: high :: low :: rest) = asciiOnly common ++ 0x25 :: high :: low :: asciiOnly rest := by
  rw [asciiOnly_append, @asciiOnly_cons 0x25 (by decide), asciiOnly_cons digits.1.1, asciiOnly_cons digits.2.1]

theorem asciiOnly_meant (common rest : List UInt8) (value : UInt8) :
    asciiOnly (common ++ value :: rest) = asciiOnly common ++ (asciiOnly [value] ++ asciiOnly rest) := by
  rw [asciiOnly_append, ← List.singleton_append, asciiOnly_append]

/-- What is ahead stays ahead when both go on with the same bytes. -/
theorem ahead_of_common {common ahead rest behind : List UInt8} (filled : ahead ≠ []) (plain : 0x2B ∉ ahead)
    (same : common ++ rest = ahead ++ (common ++ behind)) :
    ∃ later, later ≠ [] ∧ 0x2B ∉ later ∧ rest = later ++ behind := by
  induction common generalizing ahead with
  | nil => exact ⟨ahead, filled, plain, same⟩
  | cons byte common ih =>
    obtain ⟨first, ahead, rfl⟩ := List.exists_cons_of_ne_nil filled
    rw [List.cons_append, List.cons_append, List.cons_append, List.cons.injEq] at same
    obtain ⟨rfl, same⟩ := same
    refine @ih (ahead ++ [byte]) (by simp) ?_ ?_
    · intro member
      rcases List.mem_append.mp member with before | here
      · exact plain (List.mem_cons_of_mem _ before)
      · rw [List.mem_singleton.mp here] at plain
        exact plain List.mem_cons_self
    · rw [same, List.append_assoc]
      rfl

/-- The bytes of an escape that was missed stay ahead of the byte that is meant. -/
theorem ahead_of_missed {high low value : UInt8} {ahead rest behind : List UInt8} (digits : Digit high ∧ Digit low)
    (plain : 0x2B ∉ ahead)
    (same : asciiOnly [value] ++ rest = ahead ++ 0x25 :: high :: low :: behind) :
    ∃ later, later ≠ [] ∧ 0x2B ∉ later ∧ rest = later ++ behind := by
  have signless : 0x2B ∉ [0x25, high, low] := by
    simp [digits.1.2.2.symm, digits.2.2.2.symm]
  by_cases ascii : value < 0x80
  · rw [asciiOnly_cons ascii] at same
    cases ahead with
    | nil =>
      refine ⟨[high, low], by simp, ?_, (List.cons.inj same).2⟩
      intro member
      exact signless (List.mem_cons_of_mem _ member)
    | cons first ahead =>
      refine ⟨ahead ++ [0x25, high, low], by simp, ?_, ?_⟩
      · intro member
        rcases List.mem_append.mp member with before | here
        · exact plain (List.mem_cons_of_mem _ before)
        · exact signless here
      · rw [List.append_assoc]
        exact (List.cons.inj same).2
  · rw [asciiOnly_wide ascii] at same
    refine ⟨ahead ++ [0x25, high, low], by simp, ?_, ?_⟩
    · intro member
      rcases List.mem_append.mp member with before | here
      · exact plain before
      · exact signless here
    · rw [List.append_assoc]
      exact same

/-- Once the scan has written more than is meant, no later byte makes up for it. -/
theorem ahead_stays (bytes : List UInt8) {ahead : List UInt8} (filled : ahead ≠ []) (plain : 0x2B ∉ ahead) :
    asciiOnly (decodeEscapes bytes) ≠ ahead ++ asciiOnly (percentDecodeBytes bytes) := by
  induction length : bytes.length using Nat.strong_induction_on generalizing bytes ahead with
  | _ size ih =>
    intro same
    cases scan_cases bytes with
    | done empty =>
      rw [empty] at same
      exact filled (List.append_eq_nil_iff.mp same.symm).1
    | same common rest shorter sent meant _ =>
      rw [sent, meant, asciiOnly_append, asciiOnly_append] at same
      obtain ⟨later, filledLater, plainLater, sameLater⟩ := ahead_of_common filled plain same
      exact ih rest.length (by omega) rest filledLater plainLater rfl sameLater
    | sign low value rest digit small sent meant _ =>
      -- the plus sign cannot be matched: it is not ahead, and the byte behind is too small
      have ascii : value < 0x80 := UInt8.lt_trans small (by decide)
      rw [sent, meant, @asciiOnly_cons 0x25 (by decide), @asciiOnly_cons 0x2B (by decide), asciiOnly_cons ascii] at same
      obtain ⟨first, ahead, rfl⟩ := List.exists_cons_of_ne_nil filled
      have behind := (List.cons.inj same).2
      cases ahead with
      | nil =>
        rw [← (List.cons.inj behind).1] at small
        exact absurd small (by decide)
      | cons second ahead =>
        rw [← (List.cons.inj behind).1] at plain
        simp at plain
    | missed common high low value rest shorter digits sent meant _ =>
      rw [sent, meant, asciiOnly_missed digits, asciiOnly_meant] at same
      obtain ⟨later, filledLater, plainLater, sameLater⟩ := ahead_of_common filled plain same
      obtain ⟨last, filledLast, plainLast, sameLast⟩ := ahead_of_missed digits plainLater sameLater
      exact ih rest.length (by omega) rest filledLast plainLast rfl sameLast

theorem asciiOnly_apart {bytes : List UInt8} (out : inStep bytes = false) :
    asciiOnly (decodeEscapes bytes) ≠ asciiOnly (percentDecodeBytes bytes) := by
  induction length : bytes.length using Nat.strong_induction_on generalizing bytes with
  | _ size ih =>
    intro same
    cases scan_cases bytes with
    | done empty =>
      rw [empty] at out
      cases out
    | same common rest shorter sent meant step =>
      rw [sent, meant, asciiOnly_append, asciiOnly_append, List.append_cancel_left_eq] at same
      exact ih rest.length (by omega) (step ▸ out) rfl same
    | sign low value rest digit small sent meant _ =>
      have ascii : value < 0x80 := UInt8.lt_trans small (by decide)
      rw [sent, meant, @asciiOnly_cons 0x25 (by decide), asciiOnly_cons ascii] at same
      rw [← (List.cons.inj same).1] at small
      exact absurd small (by decide)
    | missed common high low value rest shorter digits sent meant _ =>
      rw [sent, meant, asciiOnly_missed digits, asciiOnly_meant, List.append_cancel_left_eq] at same
      have none_ahead : 0x2B ∉ ([] : List UInt8) := by simp
      obtain ⟨later, filled, plain, sameLater⟩ := ahead_of_missed digits none_ahead same
      exact ahead_stays rest filled plain sameLater

theorem asciiOnly_of_same {bytes : List UInt8} {text : List Char} (same : SameAscii bytes text) :
    asciiOnly bytes = (text.filter fun c => c.toNat < 128).map asciiByte := by
  induction same with
  | nil => rfl
  | ascii small later ih =>
    rw [asciiOnly_cons (asciiByte_small small), ih, List.filter_cons_of_pos (by simpa using small)]
    rfl
  | wide outside filled high later ih =>
    rw [asciiOnly_append, ih, List.filter_cons_of_neg (by simpa using outside)]
    have none_kept : asciiOnly _ = [] := List.filter_eq_nil_iff.mpr fun byte member => by simpa using high byte member
    rw [none_kept, List.nil_append]

theorem percentDecode_eq_iff (input : List Char) :
    percentDecode input = utf8DecodeLossy (decodeEscapes (utf8Encode input)) ↔ inStep (utf8Encode input) = true := by
  constructor
  · intro same
    by_contra out
    rw [Bool.not_eq_true] at out
    have sent := asciiOnly_of_same (sameAscii_lossy (percentDecodeBytes (utf8Encode input)))
    have meant := asciiOnly_of_same (sameAscii_lossy (decodeEscapes (utf8Encode input)))
    unfold percentDecode at same
    rw [same] at sent
    exact asciiOnly_apart out (meant.trans sent.symm)
  · intro step
    unfold percentDecode
    rw [percentDecodeBytes_inStep step]

/-- Percent decoding is the standard one exactly on what is scanned in step. -/
theorem percentDecode_standard_iff (input text : List Char)
    (valid : utf8Decode (decodeEscapes (utf8Encode input)) = some text) :
    percentDecode input = text ↔ inStep (utf8Encode input) = true := by
  rw [← percentDecode_eq_iff, ← utf8Decode_eq_some valid, utf8DecodeLossy_encode]

theorem stray_percents_differ :
    ¬∀ input text, utf8Decode (decodeEscapes (utf8Encode input)) = some text → percentDecode input = text := by
  intro standard
  have stray := standard "%%41".toList "%A".toList (by decide +kernel)
  revert stray
  decide +kernel

theorem plain_escapes_standard : percentDecode "100%25%c3%A9% zz".toList = "100%é% zz".toList :=
  (percentDecode_standard_iff "100%25%c3%A9% zz".toList "100%é% zz".toList (by decide +kernel)).mpr (by decide +kernel)

/-- A sign is taken for a digit. -/
example : percentDecode "%+1".toList = ['\u0001'] ∧ decodeEscapes (utf8Encode "%+1".toList) = utf8Encode "%+1".toList := by
  decide

end OpenShell.Sandbox
