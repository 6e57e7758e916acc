import OpenShell.Lib.Text

namespace Text

/-! Base64 with the standard alphabet and padding. Padding is required, and the bits it stands for are zero. -/

def base64Alphabet : List Char := "ABCDEFGHIJKLMNOPQRSTUVWXYZabcdefghijklmnopqrstuvwxyz0123456789+/".toList

def isBase64Char (c : Char) : Bool := base64Alphabet.contains c || c = '='

def base64Digit (value : Nat) : Char := base64Alphabet.getD value 'A'

def base64Value (c : Char) : Option Nat := base64Alphabet.findIdx? (· = c)

def base64Encode : List UInt8 → List Char
  | [] => []
  | [first] => [base64Digit (first.toNat / 4), base64Digit (first.toNat % 4 * 16), '=', '=']
  | [first, second] =>
    [base64Digit (first.toNat / 4), base64Digit (first.toNat % 4 * 16 + second.toNat / 16),
      base64Digit (second.toNat % 16 * 4), '=']
  | first :: second :: third :: bytes =>
    base64Digit (first.toNat / 4) :: base64Digit (first.toNat % 4 * 16 + second.toNat / 16) ::
      base64Digit (second.toNat % 16 * 4 + third.toNat / 64) :: base64Digit (third.toNat % 64) :: base64Encode bytes

def base64Decode : List Char → Option (List UInt8)
  | [] => some []
  | first :: second :: third :: fourth :: text => do
    let one ← base64Value first
    let two ← base64Value second
    if text.isEmpty && fourth = '=' then
      if third = '=' then
        if two % 16 = 0 then some [UInt8.ofNat (one * 4 + two / 16)] else none
      else do
        let three ← base64Value third
        if three % 4 = 0 then
          some [UInt8.ofNat (one * 4 + two / 16), UInt8.ofNat (two % 16 * 16 + three / 4)]
        else none
    else do
      let three ← base64Value third
      let four ← base64Value fourth
      let bytes ← base64Decode text
      pure (UInt8.ofNat (one * 4 + two / 16) :: UInt8.ofNat (two % 16 * 16 + three / 4) ::
        UInt8.ofNat (three % 4 * 64 + four) :: bytes)
  | _ => none

theorem digits_exact (value : Fin 64) : base64Value (base64Digit value) = some value.val ∧
    isBase64Char (base64Digit value) = true ∧ base64Digit value ≠ '=' := by
  revert value
  decide +kernel

theorem base64Value_digit {value : Nat} (small : value < 64) : base64Value (base64Digit value) = some value :=
  (digits_exact ⟨value, small⟩).1

theorem isBase64Char_digit (value : Nat) : isBase64Char (base64Digit value) = true := by
  rcases Nat.lt_or_ge value 64 with small | large
  · exact (digits_exact ⟨value, small⟩).2.1
  · have beyond : base64Digit value = 'A' := by
      unfold base64Digit
      rw [List.getD_eq_getElem?_getD, List.getElem?_eq_none large]
      rfl
    rw [beyond]
    decide

theorem digit_ne_padding (value : Nat) (small : value < 64) : base64Digit value ≠ '=' :=
  (digits_exact ⟨value, small⟩).2.2

theorem isBase64Char_encode (bytes : List UInt8) : ∀ c ∈ base64Encode bytes, isBase64Char c = true := by
  have padding : isBase64Char '=' = true := by decide
  fun_induction base64Encode bytes with
  | case1 => simp
  | case2 first => simp [isBase64Char_digit, padding]
  | case3 first second => simp [isBase64Char_digit, padding]
  | case4 first second third bytes ih => simpa [isBase64Char_digit] using ih

theorem isBase64Char_value {c : Char} {value : Nat} (read : base64Value c = some value) : isBase64Char c = true := by
  obtain ⟨bound, found, _⟩ := List.findIdx?_eq_some_iff_getElem.mp read
  have same := of_decide_eq_true found
  rw [isBase64Char, Bool.or_eq_true, List.contains_iff_mem, ← same]
  exact .inl (List.getElem_mem bound)

theorem isBase64Char_decode {text : List Char} {bytes : List UInt8} (decoded : base64Decode text = some bytes) :
    ∀ c ∈ text, isBase64Char c = true := by
  have padding : isBase64Char '=' = true := by decide
  induction text using base64Decode.induct generalizing bytes with
  | case1 => simp
  | case2 first second third fourth text ih =>
    rw [base64Decode] at decoded
    obtain ⟨one, readOne, decoded⟩ := Option.bind_eq_some_iff.mp decoded
    obtain ⟨two, readTwo, decoded⟩ := Option.bind_eq_some_iff.mp decoded
    simp only [List.mem_cons, forall_eq_or_imp]
    refine ⟨isBase64Char_value readOne, isBase64Char_value readTwo, ?_⟩
    split at decoded
    · rename_i last
      rw [Bool.and_eq_true, List.isEmpty_iff, decide_eq_true_eq] at last
      rw [last.1, last.2]
      split at decoded
      · rename_i alsoThird
        rw [alsoThird]
        simpa using padding
      · obtain ⟨three, readThree, _⟩ := Option.bind_eq_some_iff.mp decoded
        simpa using ⟨isBase64Char_value readThree, padding⟩
    · obtain ⟨three, readThree, decoded⟩ := Option.bind_eq_some_iff.mp decoded
      obtain ⟨four, readFour, decoded⟩ := Option.bind_eq_some_iff.mp decoded
      obtain ⟨more, readMore, _⟩ := Option.bind_eq_some_iff.mp decoded
      exact ⟨isBase64Char_value readThree, isBase64Char_value readFour, ih readMore⟩
  | case3 text unpaired unfinished =>
    rw [base64Decode] at decoded
    · cases decoded
    · exact unpaired
    · exact unfinished

theorem base64Decode_encode (bytes : List UInt8) : base64Decode (base64Encode bytes) = some bytes := by
  have byte : ∀ (value : Nat) (held : UInt8), value = held.toNat → UInt8.ofNat value = held := by
    rintro value held rfl
    exact UInt8.ofNat_toNat
  fun_induction base64Encode bytes with
  | case1 => rfl
  | case2 first =>
    have bound := first.toNat_lt
    have one := base64Value_digit (show first.toNat / 4 < 64 by omega)
    have two := base64Value_digit (show first.toNat % 4 * 16 < 64 by omega)
    have whole := byte (first.toNat / 4 * 4 + first.toNat % 4 * 16 / 16) first (by omega)
    have zero : first.toNat % 4 * 16 % 16 = 0 := by omega
    simp only [base64Decode, one, two, zero, whole, bind, Option.bind, List.isEmpty_nil, Bool.true_and, decide_true,
      if_true]
  | case3 first second =>
    have bound := first.toNat_lt
    have boundSecond := second.toNat_lt
    have one := base64Value_digit (show first.toNat / 4 < 64 by omega)
    have two := base64Value_digit (show first.toNat % 4 * 16 + second.toNat / 16 < 64 by omega)
    have three := base64Value_digit (show second.toNat % 16 * 4 < 64 by omega)
    have open_end := digit_ne_padding (second.toNat % 16 * 4) (by omega)
    have whole := byte (first.toNat / 4 * 4 + (first.toNat % 4 * 16 + second.toNat / 16) / 16) first (by omega)
    have wholeSecond := byte ((first.toNat % 4 * 16 + second.toNat / 16) % 16 * 16 + second.toNat % 16 * 4 / 4) second
      (by omega)
    have zero : second.toNat % 16 * 4 % 4 = 0 := by omega
    simp only [base64Decode, one, two, three, open_end, zero, whole, wholeSecond, bind, Option.bind, List.isEmpty_nil,
      Bool.true_and, decide_true, if_true, if_false]
  | case4 first second third bytes ih =>
    have bound := first.toNat_lt
    have boundSecond := second.toNat_lt
    have boundThird := third.toNat_lt
    have one := base64Value_digit (show first.toNat / 4 < 64 by omega)
    have two := base64Value_digit (show first.toNat % 4 * 16 + second.toNat / 16 < 64 by omega)
    have three := base64Value_digit (show second.toNat % 16 * 4 + third.toNat / 64 < 64 by omega)
    have four := base64Value_digit (show third.toNat % 64 < 64 by omega)
    have open_end := digit_ne_padding (third.toNat % 64) (by omega)
    have whole := byte (first.toNat / 4 * 4 + (first.toNat % 4 * 16 + second.toNat / 16) / 16) first (by omega)
    have wholeSecond := byte ((first.toNat % 4 * 16 + second.toNat / 16) % 16 * 16 +
      (second.toNat % 16 * 4 + third.toNat / 64) / 4) second (by omega)
    have wholeThird := byte ((second.toNat % 16 * 4 + third.toNat / 64) % 4 * 64 + third.toNat % 64) third (by omega)
    simp only [base64Decode, one, two, three, four, open_end, whole, wholeSecond, wholeThird, ih, bind, Option.bind,
      decide_false, Bool.and_false, Bool.false_eq_true, if_false, pure]

end Text
