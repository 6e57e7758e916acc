import OpenShell.Lib.Text

namespace Text

/-! Lower case, and what it leaves alone. -/

section Lowercase

variable {c : Char} {text : List Char}

theorem toNat_toLower (c : Char) :
    c.toLower.toNat = if 65 ≤ c.toNat ∧ c.toNat ≤ 90 then c.toNat + 32 else c.toNat := by
  have upper : c.val ≥ 'A'.val ∧ c.val ≤ 'Z'.val ↔ 65 ≤ c.toNat ∧ c.toNat ≤ 90 := by
    simp only [ge_iff_le, UInt32.le_iff_toNat_le]
    rfl
  unfold Char.toLower
  by_cases large : 65 ≤ c.toNat ∧ c.toNat ≤ 90
  · rw [dif_pos (upper.mpr large), if_pos large]
    show (c.val + ('a'.val - 'A'.val)).toNat = _
    rw [UInt32.toNat_add]
    show (c.toNat + 32) % 2 ^ 32 = _
    omega
  · rw [dif_neg (mt upper.mp large), if_neg large]

theorem toLower_eq_iff {plain : Char} (low : plain.toNat < 65 ∨ 122 < plain.toNat) : c.toLower = plain ↔ c = plain := by
  rw [← Char.toNat_inj, ← Char.toNat_inj, toNat_toLower]
  split <;> omega

theorem isWhitespace_toLower (c : Char) : isWhitespace c.toLower = isWhitespace c := by
  have same := toNat_toLower c
  by_cases large : 65 ≤ c.toNat ∧ c.toNat ≤ 90
  · rw [if_pos large] at same
    have dark : ∀ other : Char, 65 ≤ other.toNat → other.toNat ≤ 122 → isWhitespace other = false := by
      intro other low high
      unfold isWhitespace
      simp only [Bool.or_eq_false_iff, Bool.and_eq_false_iff, decide_eq_false_iff_not]
      omega
    rw [dark c (by omega) (by omega), dark c.toLower (by omega) (by omega)]
  · rw [if_neg large] at same
    rw [Char.toNat_inj.mp same]

theorem toDigit_toLower (radix : Nat) (c : Char) : toDigit radix c.toLower = toDigit radix c := by
  have same := toNat_toLower c
  have bounds : ∀ one two : Char, one ≤ two ↔ one.toNat ≤ two.toNat := fun _ _ => Iff.rfl
  by_cases large : 65 ≤ c.toNat ∧ c.toNat ≤ 90
  · rw [if_pos large] at same
    unfold toDigit
    simp only [bounds, same]
    simp only [show '0'.toNat = 48 from rfl, show '9'.toNat = 57 from rfl, show 'a'.toNat = 97 from rfl,
      show 'z'.toNat = 122 from rfl, show 'A'.toNat = 65 from rfl, show 'Z'.toNat = 90 from rfl]
    rw [if_neg (by omega), if_pos (by omega), if_neg (by omega), if_neg (by omega), if_pos (by omega)]
    congr 2
  · rw [if_neg large] at same
    rw [Char.toNat_inj.mp same]

theorem trim_lowercase (text : List Char) : trim (toAsciiLowercase text) = toAsciiLowercase (trim text) := by
  have white : isWhitespace ∘ Char.toLower = isWhitespace := by
    funext c
    exact isWhitespace_toLower c
  unfold trim toAsciiLowercase List.rdropWhile
  rw [List.dropWhile_map, white, ← List.map_reverse, List.dropWhile_map, white, List.map_reverse]

theorem splitWhen_lowercase {separates : Char → Bool} (same : ∀ c, separates c.toLower = separates c)
    (text : List Char) : splitWhen separates (toAsciiLowercase text) = (splitWhen separates text).map toAsciiLowercase := by
  induction text with
  | nil => rfl
  | cons c text ih =>
    show splitWhen separates (c.toLower :: toAsciiLowercase text) = _
    rw [splitWhen, splitWhen, same, ih]
    split
    · rfl
    · cases splitWhen separates text <;> rfl

theorem split_lowercase {separator : Char} (low : separator.toNat < 65 ∨ 122 < separator.toNat) (text : List Char) :
    split separator (toAsciiLowercase text) = (split separator text).map toAsciiLowercase := by
  apply splitWhen_lowercase
  intro c
  rw [decide_eq_decide]
  exact toLower_eq_iff low

theorem splitOnce_lowercase {separator : Char} (low : separator.toNat < 65 ∨ 122 < separator.toNat) (text : List Char) :
    splitOnce separator (toAsciiLowercase text) =
      (splitOnce separator text).map fun parts => (toAsciiLowercase parts.1, toAsciiLowercase parts.2) := by
  induction text with
  | nil => rfl
  | cons c text ih =>
    show splitOnce separator (c.toLower :: toAsciiLowercase text) = _
    rw [splitOnce, splitOnce, ih]
    by_cases here : c = separator
    · rw [if_pos here, if_pos ((toLower_eq_iff low).mpr here)]
      rfl
    · rw [if_neg here, if_neg (mt (toLower_eq_iff low).mp here), Option.map_map, Option.map_map]
      rfl

theorem parseDigits_lowercase (radix bound read : Nat) (text : List Char) :
    parseDigits radix bound read (toAsciiLowercase text) = parseDigits radix bound read text := by
  induction text generalizing read with
  | nil => rfl
  | cons c text ih =>
    show parseDigits radix bound read (c.toLower :: toAsciiLowercase text) = _
    simp only [parseDigits, toDigit_toLower, ih]

theorem parseUnsigned_lowercase (radix bound : Nat) (text : List Char) :
    parseUnsigned radix bound (toAsciiLowercase text) = parseUnsigned radix bound text := by
  cases text with
  | nil => rfl
  | cons c text =>
    show parseUnsigned radix bound (c.toLower :: toAsciiLowercase text) = _
    have plus : c.toLower = '+' ↔ c = '+' := toLower_eq_iff (.inl (by decide))
    unfold parseUnsigned
    simp only [List.head?_cons, Option.some.injEq, plus, List.tail_cons]
    by_cases signed : c = '+'
    · rw [if_pos signed, if_pos signed, parseDigits_lowercase, toAsciiLowercase, List.isEmpty_map]
    · rw [if_neg signed, if_neg signed]
      exact if_congr Iff.rfl rfl (parseDigits_lowercase radix bound 0 (c :: text))

end Lowercase

/-! Numbers as they are written. -/

section Digits

variable {radix : Nat} (base : 1 < radix) (read : ∀ digit < radix, toDigit radix digit.digitChar = some digit)

include base read

theorem toDigit_of_mem_toDigits (value : Nat) :
    ∀ c ∈ Nat.toDigits radix value, (toDigit radix c).isSome = true := by
  induction value using Nat.strongRecOn with
  | ind value ih =>
    rw [Nat.toDigits_eq_if base]
    split
    · rename_i small
      intro c member
      rw [List.mem_singleton.mp member, read value small]
      rfl
    · rename_i large
      intro c member
      rcases List.mem_append.mp member with early | last
      · exact ih (value / radix) (Nat.div_lt_self (by omega) base) c early
      · rw [List.mem_singleton.mp last, read _ (Nat.mod_lt value (by omega))]
        rfl

theorem foldl_toDigits (value : Nat) :
    (Nat.toDigits radix value).foldl (fun sum c => sum * radix + (toDigit radix c).getD 0) 0 = value := by
  induction value using Nat.strongRecOn with
  | ind value ih =>
    rw [Nat.toDigits_eq_if base]
    split
    · rename_i small
      rw [List.foldl_cons, read value small]
      simp
    · rename_i large
      rw [List.foldl_append, ih (value / radix) (Nat.div_lt_self (by omega) base), List.foldl_cons,
        read _ (Nat.mod_lt value (by omega)), List.foldl_nil, Option.getD_some]
      exact Nat.div_add_mod' value radix

theorem head_toDigits {value : Nat} (positive : 0 < value) : (Nat.toDigits radix value).head? ≠ some '0' := by
  induction value using Nat.strongRecOn with
  | ind value ih =>
    rw [Nat.toDigits_eq_if base]
    split
    · rename_i small
      rw [List.head?_cons, ne_eq, Option.some.injEq]
      intro zero
      have own := read value small
      rw [zero, show '0' = Nat.digitChar 0 from rfl, read 0 (by omega)] at own
      cases own
      exact absurd positive (lt_irrefl 0)
    · rename_i large
      rw [List.head?_append_of_ne_nil _ Nat.toDigits_ne_nil]
      exact ih (value / radix) (Nat.div_lt_self (by omega) base) (Nat.div_pos (by omega) (by omega))

end Digits

theorem toDigit_decimal : ∀ digit < 10, toDigit 10 digit.digitChar = some digit := by decide

theorem toDigit_hex : ∀ digit < 16, toDigit 16 digit.digitChar = some digit := by decide

/-! Numbers as they are parsed. -/

section Parsed

variable {radix bound value read : Nat} {text : List Char}

/-- The number that digits stand for, behind one that is read already. -/
def valueFrom (radix read : Nat) (text : List Char) : Nat :=
  text.foldl (fun sum c => sum * radix + (toDigit radix c).getD 0) read

theorem le_valueFrom (positive : 0 < radix) (read : Nat) (text : List Char) : read ≤ valueFrom radix read text := by
  induction text generalizing read with
  | nil => exact le_refl read
  | cons c text ih =>
    have more : read ≤ read * radix + (toDigit radix c).getD 0 :=
      Nat.le_add_right_of_le (Nat.le_mul_of_pos_right read positive)
    exact more.trans (ih _)

theorem parseDigits_eq_some_iff (positive : 0 < radix) (inside : read < bound) :
    parseDigits radix bound read text = some value ↔
      (∀ c ∈ text, (toDigit radix c).isSome = true) ∧ valueFrom radix read text = value ∧ value < bound := by
  induction text generalizing read with
  | nil =>
    simp only [parseDigits, Option.some.injEq, List.not_mem_nil, false_implies, implies_true, true_and, valueFrom,
      List.foldl_nil]
    exact ⟨fun same => ⟨same, same ▸ inside⟩, fun both => both.1⟩
  | cons c text ih =>
    rw [parseDigits, List.forall_mem_cons]
    cases digit : toDigit radix c with
    | none => simp
    | some digit' =>
      have step : valueFrom radix read (c :: text) = valueFrom radix (read * radix + digit') text := by
        rw [valueFrom, List.foldl_cons, digit]
        rfl
      rw [step]
      simp only [bind, Option.bind_some, Option.isSome_some, true_and]
      by_cases fits : read * radix + digit' < bound
      · rw [if_pos fits, ih fits]
      · rw [if_neg fits]
        refine iff_of_false (Option.some_ne_none value ∘ Eq.symm) ?_
        rintro ⟨_, same, small⟩
        have large := le_valueFrom positive (read * radix + digit') text
        omega

/-- What is parsed has digits alone, unless it has a sign. -/
theorem digits_iff_unsigned (positive : 0 < radix) (room : 0 < bound) (plus : toDigit radix '+' = none)
    (parsed : parseUnsigned radix bound text = some value) :
    text.head? ≠ some '+' ↔
      text ≠ [] ∧ (∀ c ∈ text, (toDigit radix c).isSome = true) ∧ valueFrom radix 0 text = value := by
  unfold parseUnsigned at parsed
  extract_lets digits at parsed
  split at parsed
  · cases parsed
  · rename_i filled
    constructor
    · intro unsigned
      have whole : digits = text := if_neg unsigned
      obtain ⟨all, same, _⟩ := (parseDigits_eq_some_iff positive room).mp parsed
      rw [whole] at all same filled
      exact ⟨by simpa using filled, all, same⟩
    · rintro ⟨_, all, _⟩ signed
      have digit := all '+' (List.mem_of_mem_head? signed)
      rw [plus] at digit
      cases digit

/-- Digits without a sign are parsed to what they stand for. -/
theorem parseUnsigned_digits (positive : 0 < radix) (plus : toDigit radix '+' = none) (filled : text ≠ [])
    (all : ∀ c ∈ text, (toDigit radix c).isSome = true) (small : valueFrom radix 0 text < bound) :
    parseUnsigned radix bound text = some (valueFrom radix 0 text) := by
  have unsigned : text.head? ≠ some '+' := by
    intro signed
    have digit := all '+' (List.mem_of_mem_head? signed)
    rw [plus] at digit
    cases digit
  unfold parseUnsigned
  rw [if_neg unsigned]
  simp only [List.isEmpty_iff, filled, if_false]
  exact (parseDigits_eq_some_iff positive (by omega)).mpr ⟨all, rfl, small⟩

end Parsed

/-- A number is read back from its decimal digits. -/
theorem parseUnsigned_toDigits {bound value : Nat} (small : value < bound) :
    parseUnsigned 10 bound (Nat.toDigits 10 value) = some value := by
  have same : valueFrom 10 0 (Nat.toDigits 10 value) = value := foldl_toDigits (by decide) toDigit_decimal value
  rw [parseUnsigned_digits (by decide) (by decide) Nat.toDigits_ne_nil
    (toDigit_of_mem_toDigits (by decide) toDigit_decimal value) (by rwa [same]), same]

/-! Decimal and hexadecimal digits. -/

section Digits

variable {bound value : Nat} {text : List Char}

/-- Decimal digits that stand for the value. -/
def Decimal (text : List Char) (value : Nat) : Prop :=
  text ≠ [] ∧ (∀ c ∈ text, '0' ≤ c ∧ c ≤ '9') ∧ text.foldl (fun sum c => sum * 10 + (c.toNat - '0'.toNat)) 0 = value

def Hexadecimal (text : List Char) : Prop :=
  text ≠ [] ∧ ∀ c ∈ text, '0' ≤ c ∧ c ≤ '9' ∨ 'a' ≤ c ∧ c ≤ 'f' ∨ 'A' ≤ c ∧ c ≤ 'F'

theorem toDigit_ten (c : Char) : toDigit 10 c = if '0' ≤ c ∧ c ≤ '9' then some (c.toNat - '0'.toNat) else none := by
  have bounds : ∀ one two : Char, one ≤ two ↔ one.toNat ≤ two.toNat := fun _ _ => Iff.rfl
  unfold toDigit
  simp only [bounds, show '0'.toNat = 48 from rfl, show '9'.toNat = 57 from rfl, show 'a'.toNat = 97 from rfl,
    show 'z'.toNat = 122 from rfl, show 'A'.toNat = 65 from rfl, show 'Z'.toNat = 90 from rfl]
  split
  · simp only [Option.filter_some]
    rw [if_pos (by simp; omega)]
  · split
    · simp only [Option.filter_some]
      rw [if_neg (by simp)]
    · split
      · simp only [Option.filter_some]
        rw [if_neg (by simp)]
      · rfl

theorem toDigit_sixteen (c : Char) : (toDigit 16 c).isSome = true ↔
    '0' ≤ c ∧ c ≤ '9' ∨ 'a' ≤ c ∧ c ≤ 'f' ∨ 'A' ≤ c ∧ c ≤ 'F' := by
  have bounds : ∀ one two : Char, one ≤ two ↔ one.toNat ≤ two.toNat := fun _ _ => Iff.rfl
  unfold toDigit
  simp only [bounds, show '0'.toNat = 48 from rfl, show '9'.toNat = 57 from rfl, show 'a'.toNat = 97 from rfl,
    show 'z'.toNat = 122 from rfl, show 'A'.toNat = 65 from rfl, show 'Z'.toNat = 90 from rfl,
    show 'f'.toNat = 102 from rfl, show 'F'.toNat = 70 from rfl]
  split
  · simp
    omega
  · split
    · simp
      omega
    · split
      · simp
        omega
      · simp
        omega

theorem decimal_iff (room : 0 < bound) (parsed : parseUnsigned 10 bound text = some value) :
    Decimal text value ↔ text.head? ≠ some '+' := by
  rw [digits_iff_unsigned (by decide) room rfl parsed]
  apply and_congr_right
  intro _
  have digits : ∀ c, (toDigit 10 c).isSome = true ↔ '0' ≤ c ∧ c ≤ '9' := by
    intro c
    rw [toDigit_ten]
    split <;> simp_all
  simp only [digits]
  apply and_congr_right
  intro all
  have same : valueFrom 10 0 text = text.foldl (fun sum c => sum * 10 + (c.toNat - '0'.toNat)) 0 := by
    apply List.foldl_ext
    intro sum c member
    rw [toDigit_ten, if_pos (all c member)]
    rfl
  rw [same]

theorem hexadecimal_iff (room : 0 < bound) (parsed : parseUnsigned 16 bound text = some value) :
    Hexadecimal text ↔ text.head? ≠ some '+' := by
  have unsigned := digits_iff_unsigned (by decide) room rfl parsed
  unfold Hexadecimal
  simp only [← toDigit_sixteen]
  constructor
  · rintro ⟨filled, all⟩ signed
    have digit := all '+' (List.mem_of_mem_head? signed)
    cases digit
  · intro plain
    obtain ⟨filled, all, _⟩ := unsigned.mp plain
    exact ⟨filled, all⟩

end Digits

end Text
