import OpenShell.Sandbox.Http
import OpenShell.Sandbox.Substitution

namespace OpenShell.Sandbox

open Text

/-! The two readers of hexadecimal digits. -/

set_option maxRecDepth 4000 in
theorem nibble_cases {byte value : UInt8} (read : decodeHexNibble byte = some value) :
    value < 16 ∧ byte < 0x80 ∧ byte ≠ 0x25 ∧ byte ≠ 0x2B := by
  have all : ∀ byte : Fin 256, (decodeHexNibble (UInt8.ofNat byte)).all (fun value =>
      value < 16 && UInt8.ofNat byte < 0x80 && UInt8.ofNat byte != 0x25 && UInt8.ofNat byte != 0x2B) = true := by
    decide
  have here := all ⟨byte.toNat, byte.toNat_lt⟩
  rw [UInt8.ofNat_toNat, read, Option.all_some] at here
  simpa [and_assoc] using here

set_option maxRecDepth 4000 in
theorem nibble_digit (byte : UInt8) (ascii : byte < 0x80) :
    toDigit 16 (Char.ofNat byte.toNat) = (decodeHexNibble byte).map UInt8.toNat := by
  have all : ∀ byte : Fin 128, toDigit 16 (Char.ofNat byte) = (decodeHexNibble (UInt8.ofNat byte)).map UInt8.toNat := by
    decide
  have here := all ⟨byte.toNat, UInt8.lt_iff_toNat_lt.mp ascii⟩
  rwa [UInt8.ofNat_toNat] at here

/-- The byte that two hexadecimal digits give. -/
def escapedByte (high low : UInt8) : Option UInt8 := do
  let high ← decodeHexNibble high
  let low ← decodeHexNibble low
  pure (high <<< 4 ||| low)

set_option maxRecDepth 4000 in
theorem join_nibbles {high low : UInt8} (highSmall : high < 16) (lowSmall : low < 16) :
    high <<< 4 ||| low = UInt8.ofNat (high.toNat * 16 + low.toNat) := by
  have all : ∀ high low : Fin 16, UInt8.ofNat high <<< 4 ||| UInt8.ofNat low = UInt8.ofNat (high * 16 + low) := by
    decide
  have here := all ⟨high.toNat, UInt8.lt_iff_toNat_lt.mp highSmall⟩ ⟨low.toNat, UInt8.lt_iff_toNat_lt.mp lowSmall⟩
  rwa [UInt8.ofNat_toNat, UInt8.ofNat_toNat] at here

theorem hexByte_ascii {high low : UInt8} (highAscii : high < 0x80) (lowAscii : low < 0x80) :
    hexByte high low = if high = 0x2B then decodeHexNibble low else escapedByte high low := by
  have text : utf8Decode [high, low] = some [Char.ofNat high.toNat, Char.ofNat low.toNat] := by
    have encoded := utf8Decode_encode [Char.ofNat high.toNat, Char.ofNat low.toNat]
    rw [utf8Encode_cons, utf8Encode_cons, encode_asciiChar highAscii, encode_asciiChar lowAscii] at encoded
    exact encoded
  have sign : Char.ofNat high.toNat = '+' ↔ high = 0x2B := by
    rw [← Char.toNat_inj, toNat_asciiChar highAscii, ← UInt8.toNat_inj]
    rfl
  unfold hexByte parseUnsigned
  rw [text]
  simp only [bind, Option.bind_some, List.head?_cons, Option.some.injEq, sign, List.tail_cons]
  by_cases signed : high = 0x2B
  · rw [if_pos signed, if_pos signed]
    simp only [List.isEmpty_cons, Bool.false_eq_true, if_false, parseDigits, nibble_digit low lowAscii]
    cases read : decodeHexNibble low with
    | none => rfl
    | some value =>
      have small : value.toNat < 16 := UInt8.lt_iff_toNat_lt.mp (nibble_cases read).1
      simp only [bind, Option.map_some, Option.bind_some, Nat.zero_mul, Nat.zero_add, show value.toNat < 256 by omega, if_true,
        pure, UInt8.ofNat_toNat]
  · rw [if_neg signed, if_neg signed]
    simp only [List.isEmpty_cons, Bool.false_eq_true, if_false, parseDigits, nibble_digit high highAscii,
      nibble_digit low lowAscii, escapedByte]
    cases readHigh : decodeHexNibble high with
    | none => rfl
    | some first =>
      cases readLow : decodeHexNibble low with
      | none =>
        simp
      | some second =>
        have firstSmall := (nibble_cases readHigh).1
        have secondSmall := (nibble_cases readLow).1
        have one : first.toNat < 16 := UInt8.lt_iff_toNat_lt.mp firstSmall
        have two : second.toNat < 16 := UInt8.lt_iff_toNat_lt.mp secondSmall
        simp only [bind, Option.map_some, Option.bind_some, Nat.zero_mul, Nat.zero_add, show first.toNat < 256 by omega,
          show first.toNat * 16 + second.toNat < 256 by omega, if_true, pure, join_nibbles firstSmall secondSmall]

theorem nibble_wide {byte : UInt8} (wide : ¬byte < 0x80) : decodeHexNibble byte = none := by
  cases read : decodeHexNibble byte with
  | none => rfl
  | some value => exact absurd (nibble_cases read).2.1 wide

theorem inert_wide {byte : UInt8} (wide : ¬byte < 0x80) : Inert byte := by
  intro c small same
  rw [← same] at wide
  exact absurd (asciiByte_small small) wide

/-- Two characters are read as two digits, or as a sign and one digit. -/
theorem hexByte_eq (high low : UInt8) :
    hexByte high low = if high = 0x2B then decodeHexNibble low else escapedByte high low := by
  by_cases ascii : high < 0x80 ∧ low < 0x80
  · exact hexByte_ascii ascii.1 ascii.2
  · have inert : Inert high ∨ Inert low := by
      rcases not_and_or.mp ascii with wide | wide
      · exact .inl (inert_wide wide)
      · exact .inr (inert_wide wide)
    rw [hexByte_inert inert]
    rcases not_and_or.mp ascii with wide | wide
    · rw [if_neg (by rintro rfl; exact wide (by decide)), escapedByte, nibble_wide wide]
      rfl
    · rw [nibble_wide wide]
      split
      · rfl
      · rw [escapedByte, nibble_wide wide]
        cases decodeHexNibble high <;> rfl

theorem hexByte_digits {high low value : UInt8} (read : escapedByte high low = some value) :
    hexByte high low = some value := by
  have digit := read
  unfold escapedByte at digit
  obtain ⟨first, readHigh, _⟩ := Option.bind_eq_some_iff.mp digit
  rw [hexByte_eq, if_neg (nibble_cases readHigh).2.2.2, read]

/-! The two decoders. -/

/-- What the decoder of queries accepts, the other reads the same way. -/
theorem percentDecodeBytes_of_query {bytes decoded : List UInt8} (plain : 0x2B ∉ bytes)
    (read : decodeQueryBytes bytes = some decoded) : percentDecodeBytes bytes = decoded := by
  fun_induction decodeQueryBytes bytes generalizing decoded with
  | case1 =>
    cases read
    rfl
  | case2 bytes ih => exact absurd List.mem_cons_self plain
  | case3 high low bytes ih =>
    obtain ⟨first, readHigh, read⟩ := Option.bind_eq_some_iff.mp read
    obtain ⟨second, readLow, read⟩ := Option.bind_eq_some_iff.mp read
    obtain ⟨behind, readBehind, read⟩ := Option.bind_eq_some_iff.mp read
    cases read
    have digits : escapedByte high low = some (first <<< 4 ||| second) := by
      rw [escapedByte, readHigh, readLow]
      rfl
    have later : 0x2B ∉ bytes := fun member => plain (by simp [member])
    rw [percentDecodeBytes, hexByte_digits digits, ih later readBehind]
  | case4 bytes short => cases read
  | case5 byte bytes sign short percent ih =>
    obtain ⟨behind, readBehind, read⟩ := Option.map_eq_some_iff.mp read
    subst read
    have later : 0x2B ∉ bytes := fun member => plain (List.mem_cons_of_mem _ member)
    rw [percentDecodeBytes_other percent, ih later readBehind]

section Encoded

variable {stays : Char → Bool}

theorem nibble_written {digit : Nat} (small : digit < 16) :
    decodeHexNibble (asciiByte (upperHexDigit digit)) = some (UInt8.ofNat digit) := by
  have read : ∀ digit : Fin 16, decodeHexNibble (asciiByte (upperHexDigit digit)) = some (UInt8.ofNat digit) := by
    decide
  exact read ⟨digit, small⟩

set_option maxRecDepth 4000 in
theorem digits_join (byte : UInt8) :
    UInt8.ofNat (byte.toNat / 16) <<< 4 ||| UInt8.ofNat (byte.toNat % 16) = byte := by
  have all : ∀ byte : Fin 256, UInt8.ofNat (byte / 16) <<< 4 ||| UInt8.ofNat (byte % 16) = UInt8.ofNat byte := by
    decide
  have here := all ⟨byte.toNat, byte.toNat_lt⟩
  rwa [UInt8.ofNat_toNat] at here

theorem decodeQueryBytes_other {byte : UInt8} (percent : byte ≠ 0x25) (plus : byte ≠ 0x2B) (bytes : List UInt8) :
    decodeQueryBytes (byte :: bytes) = (byte :: ·) <$> decodeQueryBytes bytes := by
  rw [decodeQueryBytes]
  · exact plus
  · intro high low rest same
    exact absurd same percent
  · exact percent

theorem decodeQueryBytes_encoded (ascii : ∀ c, stays c = true → c.toNat < 128 ∧ c ≠ '%') (plus : stays '+' = false)
    (byte : UInt8) (rest : List UInt8) :
    decodeQueryBytes (utf8Encode (if stays (Char.ofNat byte.toNat) then [Char.ofNat byte.toNat]
      else ['%', upperHexDigit (byte.toNat / 16), upperHexDigit (byte.toNat % 16)]) ++ rest) =
      (byte :: ·) <$> decodeQueryBytes rest := by
  have bound := byte.toNat_lt
  rcases utf8Encode_encoded ascii byte with ⟨written, notPercent, stayed⟩ | written
  · have notPlus : byte ≠ 0x2B := by
      intro same
      rw [same, show Char.ofNat (0x2B : UInt8).toNat = '+' from rfl, plus] at stayed
      cases stayed
    rw [written]
    exact decodeQueryBytes_other notPercent notPlus rest
  · have high : byte.toNat / 16 < 16 := by omega
    have low : byte.toNat % 16 < 16 := by omega
    rw [written, List.cons_append, List.cons_append, List.cons_append, List.nil_append, decodeQueryBytes,
      nibble_written high, nibble_written low]
    simp only [bind, Option.bind_some, digits_join]
    cases decodeQueryBytes rest <;> rfl

theorem decodeQueryComponent_query (text : List Char) : decodeQueryComponent (percentEncodeQuery text) = .ok text := by
  have bytes : ∀ bytes : List UInt8, decodeQueryBytes (utf8Encode (bytes.flatMap fun byte =>
      if isUnreserved (Char.ofNat byte.toNat) then [Char.ofNat byte.toNat]
      else ['%', upperHexDigit (byte.toNat / 16), upperHexDigit (byte.toNat % 16)])) = some bytes := by
    intro bytes
    induction bytes with
    | nil => rfl
    | cons byte bytes ih =>
      rw [List.flatMap_cons, utf8Encode_append,
        decodeQueryBytes_encoded (fun c stays => isPchar_ascii (isPchar_unreserved c stays)) (by decide), ih]
      rfl
  unfold decodeQueryComponent percentEncodeQuery percentEncode
  rw [bytes]
  simp only [utf8Decode_encode]

end Encoded

theorem percentDecode_of_component {input text : List Char} (plain : '+' ∉ input)
    (read : decodeQueryComponent input = .ok text) : percentDecode input = text := by
  have plainBytes : 0x2B ∉ utf8Encode input := by
    intro member
    exact plain (((sameAscii_encode input).mem_iff (by decide)).mp member)
  unfold decodeQueryComponent at read
  split at read
  · cases read
  · rename_i decoded readBytes
    split at read
    · cases read
    · rename_i whole valid
      cases read
      unfold percentDecode
      rw [percentDecodeBytes_of_query plainBytes readBytes, ← utf8Decode_eq_some valid, utf8DecodeLossy_encode]

theorem percent_codecs_inverse :
    (∀ text, percentDecode (percentEncodeQuery text) = text ∧ percentDecode (percentEncodePathSegment text) = text ∧
      decodeQueryComponent (percentEncodeQuery text) = .ok text) ∧
    ∀ input text, '+' ∉ input → decodeQueryComponent input = .ok text → percentDecode input = text := by
  constructor
  · intro text
    exact ⟨percentDecode_query text, percentDecode_segment text, decodeQueryComponent_query text⟩
  · intro input text plain read
    exact percentDecode_of_component plain read

theorem euro_decoded : percentDecode "a%e2%82%AC".toList = "a€".toList :=
  percent_codecs_inverse.2 "a%e2%82%AC".toList "a€".toList (by decide +kernel) (by decide +kernel)

end OpenShell.Sandbox
