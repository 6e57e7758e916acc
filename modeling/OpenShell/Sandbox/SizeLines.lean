import OpenShell.Lib.Numbers
import OpenShell.Sandbox.ChunkLines

namespace OpenShell.Sandbox

open Text

/-! Size lines as they may be written: digits of either case, with zeros in front and with an extension behind. -/

section Digits

variable {c : Char} {digits : List Char}

theorem hex_plain (digit : (toDigit 16 c).isSome = true) : c ≠ '\r' ∧ c ≠ ';' ∧ isWhitespace c = false := by
  have bounds : ∀ one two : Char, one ≤ two ↔ one.toNat ≤ two.toNat := fun _ _ => Iff.rfl
  have ranges := (toDigit_sixteen c).mp digit
  simp only [bounds, show '0'.toNat = 48 from rfl, show '9'.toNat = 57 from rfl, show 'a'.toNat = 97 from rfl,
    show 'A'.toNat = 65 from rfl, show 'f'.toNat = 102 from rfl, show 'F'.toNat = 70 from rfl] at ranges
  refine ⟨?_, ?_, ?_⟩
  · rintro rfl
    revert ranges
    decide
  · rintro rfl
    revert ranges
    decide
  · unfold isWhitespace
    simp
    omega

theorem hexadecimal_plain (hexadecimal : Hexadecimal digits) (member : c ∈ digits) :
    c ≠ '\r' ∧ c ≠ ';' ∧ isWhitespace c = false :=
  hex_plain ((toDigit_sixteen c).mpr (hexadecimal.2 c member))

theorem parseUnsigned_hexadecimal (hexadecimal : Hexadecimal digits) (small : valueFrom 16 0 digits < 2 ^ 64) :
    parseUnsigned 16 (2 ^ 64) digits = some (valueFrom 16 0 digits) := by
  have all : ∀ c ∈ digits, (toDigit 16 c).isSome = true := fun c member =>
    (toDigit_sixteen c).mpr (hexadecimal.2 c member)
  exact parseUnsigned_digits (by decide) (by decide) hexadecimal.1 all small

theorem hexadecimal_toDigits (size : Nat) : Hexadecimal (Nat.toDigits 16 size) :=
  ⟨Nat.toDigits_ne_nil, fun c member =>
    (toDigit_sixteen c).mp (toDigit_of_mem_toDigits (by decide) toDigit_hex size c member)⟩

end Digits

structure SizeLine (size : Nat) where
  digits : List Char
  extension : List Char
  hexadecimal : Hexadecimal digits
  value : valueFrom 16 0 digits = size
  begins : ∀ c ∈ extension.head?, c = ';'
  isLine : IsLine (utf8Encode extension)

namespace SizeLine

variable {size : Nat} (line : SizeLine size)

def bytes : List UInt8 := utf8Encode (line.digits ++ line.extension)

theorem isLine_bytes : IsLine line.bytes := by
  have absent : (0x0D : UInt8) ∉ utf8Encode line.digits := by
    rw [show (0x0D : UInt8) = asciiByte '\r' by decide, (sameAscii_encode _).mem_iff (by decide)]
    exact fun member => (hexadecimal_plain line.hexadecimal member).1 rfl
  have lead : position crlf (utf8Encode line.digits ++ (utf8Encode line.extension ++ crlf)) =
      (position crlf (utf8Encode line.extension ++ crlf)).map (· + (utf8Encode line.digits).length) :=
    @position_lead _ _ 0x0D [0x0A] _ absent _
  have behind : position crlf (utf8Encode line.extension ++ crlf) = some (utf8Encode line.extension).length := line.isLine
  unfold IsLine bytes
  rw [utf8Encode_append, List.append_assoc, lead, behind, Option.map_some, List.length_append, Nat.add_comm]

theorem token : trim ((split ';' (line.digits ++ line.extension)).headD []) = line.digits := by
  have whole : ∀ c ∈ line.digits, decide (c = ';') = false := fun c member => by
    simpa using (hexadecimal_plain line.hexadecimal member).2.1
  have first : (split ';' (line.digits ++ line.extension)).headD [] = line.digits := by
    rw [split]
    cases held : line.extension with
    | nil => rw [List.append_nil, splitWhen_whole whole, List.headD_cons]
    | cons c extension =>
      rw [line.begins c (by rw [held]; rfl), splitWhen_append whole (by decide), List.headD_cons]
  rw [first]
  apply trim_whole
  · exact fun c first => (hexadecimal_plain line.hexadecimal (List.mem_of_mem_head? first)).2.2
  · exact fun c last => (hexadecimal_plain line.hexadecimal (List.mem_of_getLast? last)).2.2

theorem chunkSize_bytes (small : size < 2 ^ 64) : chunkSize line.bytes = .ok size := by
  have parsed := parseUnsigned_hexadecimal line.hexadecimal (by rwa [line.value])
  rw [line.value] at parsed
  exact chunkSize_eq_ok_iff.mpr ⟨_, by rw [sizeToken, bytes, utf8Decode_encode, Option.map_some, line.token], parsed⟩

end SizeLine

/-- The digits alone. -/
def plainLine (size : Nat) : SizeLine size where
  digits := Nat.toDigits 16 size
  extension := []
  hexadecimal := hexadecimal_toDigits size
  value := foldl_toDigits (by decide) toDigit_hex size
  begins _ first := by cases first
  isLine := show IsLine [] from rfl

theorem plainLine_bytes (size : Nat) : (plainLine size).bytes = utf8Encode (Nat.toDigits 16 size) := by
  exact congrArg utf8Encode (List.append_nil (Nat.toDigits 16 size))

end OpenShell.Sandbox
