import OpenShell.Lib.Text

namespace Text

/-! Text as bytes. -/

def utf8Encode (text : List Char) : List UInt8 := text.flatMap String.utf8EncodeChar

def decodeChar (bytes : List UInt8) : Option Char := ByteArray.utf8DecodeChar? ⟨(bytes.take 4).toArray⟩ 0

def utf8DecodeFor : Nat → List UInt8 → Option (List Char)
  | _, [] => some []
  | 0, _ => none
  | fuel + 1, bytes => do
    let c ← decodeChar bytes
    let text ← utf8DecodeFor fuel (bytes.drop c.utf8Size)
    pure (c :: text)

def utf8Decode (bytes : List UInt8) : Option (List Char) := utf8DecodeFor bytes.length bytes

def following (byte : UInt8) : Option (Nat × UInt8 × UInt8) :=
  if 0xC2 ≤ byte ∧ byte ≤ 0xDF then some (1, 0x80, 0xBF)
  else if byte = 0xE0 then some (2, 0xA0, 0xBF)
  else if byte = 0xED then some (2, 0x80, 0x9F)
  else if 0xE1 ≤ byte ∧ byte ≤ 0xEF then some (2, 0x80, 0xBF)
  else if byte = 0xF0 then some (3, 0x90, 0xBF)
  else if 0xF1 ≤ byte ∧ byte ≤ 0xF3 then some (3, 0x80, 0xBF)
  else if byte = 0xF4 then some (3, 0x80, 0x8F)
  else none

def isContinuation (byte : UInt8) : Bool := 0x80 ≤ byte && byte ≤ 0xBF

/-- The length of the longest start of the bytes that one replacement character stands for: a start of
    some character's encoding, or else one byte. -/
def invalidLength : List UInt8 → Nat
  | [] => 0
  | first :: bytes =>
    match following first, bytes with
    | some (count, low, high), second :: more =>
      if low ≤ second ∧ second ≤ high then
        2 + ((more.take (count - 1)).takeWhile isContinuation).length
      else 1
    | _, _ => 1

def utf8DecodeLossyFor : Nat → List UInt8 → List Char
  | _, [] => []
  | 0, _ => []
  | fuel + 1, bytes =>
    match decodeChar bytes with
    | some c => c :: utf8DecodeLossyFor fuel (bytes.drop c.utf8Size)
    | none => '\uFFFD' :: utf8DecodeLossyFor fuel (bytes.drop (invalidLength bytes))

def utf8DecodeLossy (bytes : List UInt8) : List Char := utf8DecodeLossyFor bytes.length bytes

/-! Characters and their bytes. -/

theorem decodeChar_encode (c : Char) (bytes : List UInt8) :
    decodeChar (String.utf8EncodeChar c ++ bytes) = some c := by
  have short : (String.utf8EncodeChar c).length ≤ 4 := by
    rw [String.length_utf8EncodeChar]
    exact c.utf8Size_le_four
  have whole := @ByteArray.utf8DecodeChar?_utf8EncodeChar_append
    ⟨(bytes.take (4 - (String.utf8EncodeChar c).length)).toArray⟩ c
  unfold decodeChar
  rw [List.take_append, List.take_of_length_le short, ← whole]
  congr 1
  apply ByteArray.ext
  simp

theorem decodeChar_eq_some {bytes : List UInt8} {c : Char} (decoded : decodeChar bytes = some c) :
    ∃ rest, bytes = String.utf8EncodeChar c ++ rest := by
  obtain ⟨rest, same⟩ := ByteArray.exists_of_utf8DecodeChar?_eq_some decoded
  have start : bytes.take 4 = String.utf8EncodeChar c ++ rest.data.toList := by
    have held := congrArg (fun array => array.data.toList) same
    simpa using held
  refine ⟨rest.data.toList ++ bytes.drop 4, ?_⟩
  rw [← List.append_assoc, ← start, List.take_append_drop]

theorem encode_ascii {c : Char} (ascii : c.toNat < 128) :
    String.utf8EncodeChar c = [UInt8.ofNat c.toNat] := by
  have size : c.utf8Size = 1 := by
    rw [Char.utf8Size_eq_one_iff, UInt32.le_iff_toNat_le]
    exact Nat.le_of_lt_succ ascii
  rw [String.utf8EncodeChar_eq_singleton size]
  rfl

theorem encode_wide {c : Char} (wide : 128 ≤ c.toNat) : ∀ byte ∈ String.utf8EncodeChar c, 0x80 ≤ byte := by
  have high : ∀ value : Nat, 128 ≤ value → value < 256 → 0x80 ≤ UInt8.ofNat value := by
    intro value low bound
    rw [UInt8.le_iff_toNat_le, UInt8.toNat_ofNat_of_lt' bound]
    exact low
  have positive : ¬ c.val.toNat ≤ 127 := by
    have same : c.val.toNat = c.toNat := rfl
    omega
  unfold String.utf8EncodeChar
  simp only [positive, if_false]
  split
  · simp only [List.mem_cons, List.not_mem_nil, or_false, forall_eq_or_imp, forall_eq]
    exact ⟨high _ (by omega) (by omega), high _ (by omega) (by omega)⟩
  · split
    · simp only [List.mem_cons, List.not_mem_nil, or_false, forall_eq_or_imp, forall_eq]
      exact ⟨high _ (by omega) (by omega), high _ (by omega) (by omega), high _ (by omega) (by omega)⟩
    · simp only [List.mem_cons, List.not_mem_nil, or_false, forall_eq_or_imp, forall_eq]
      exact ⟨high _ (by omega) (by omega), high _ (by omega) (by omega), high _ (by omega) (by omega),
        high _ (by omega) (by omega)⟩

/-- Only the first byte of a character is no continuation. -/
theorem encode_lead (c : Char) : ∃ lead more, String.utf8EncodeChar c = lead :: more ∧
    isContinuation lead = false ∧ ∀ byte ∈ more, isContinuation byte = true := by
  have within : ∀ value : Nat, 128 ≤ value → value < 192 → isContinuation (UInt8.ofNat value) = true := by
    intro value low bound
    have number := UInt8.toNat_ofNat_of_lt' (show value < 2 ^ 8 by omega)
    simp only [isContinuation, UInt8.le_iff_toNat_le, number, Bool.and_eq_true, decide_eq_true_eq]
    exact ⟨low, Nat.le_of_lt_succ bound⟩
  have outside : ∀ value : Nat, value < 128 ∨ 192 ≤ value → value < 256 →
      isContinuation (UInt8.ofNat value) = false := by
    intro value apart bound
    have number := UInt8.toNat_ofNat_of_lt' (show value < 2 ^ 8 by omega)
    simp only [isContinuation, UInt8.le_iff_toNat_le, number, Bool.and_eq_false_iff, decide_eq_false_iff_not]
    rw [show (0x80 : UInt8).toNat = 128 from rfl, show (0xBF : UInt8).toNat = 191 from rfl]
    omega
  unfold String.utf8EncodeChar
  simp only
  split
  · exact ⟨_, _, rfl, outside _ (by omega) (by omega), by simp⟩
  · split
    · refine ⟨_, _, rfl, outside _ (by omega) (by omega), ?_⟩
      simp only [List.mem_cons, List.not_mem_nil, or_false, forall_eq]
      exact within _ (by omega) (by omega)
    · split
      · refine ⟨_, _, rfl, outside _ (by omega) (by omega), ?_⟩
        simp only [List.mem_cons, List.not_mem_nil, or_false, forall_eq_or_imp, forall_eq]
        exact ⟨within _ (by omega) (by omega), within _ (by omega) (by omega)⟩
      · refine ⟨_, _, rfl, outside _ (by omega) (by omega), ?_⟩
        simp only [List.mem_cons, List.not_mem_nil, or_false, forall_eq_or_imp, forall_eq]
        exact ⟨within _ (by omega) (by omega), within _ (by omega) (by omega), within _ (by omega) (by omega)⟩

theorem toNat_asciiChar {byte : UInt8} (ascii : byte < 0x80) : (Char.ofNat byte.toNat).toNat = byte.toNat := by
  have small : byte.toNat < 128 := UInt8.lt_iff_toNat_lt.mp ascii
  have valid : byte.toNat.isValidChar := Or.inl (by omega)
  rw [Char.ofNat, dif_pos valid]
  rfl

theorem encode_asciiChar {byte : UInt8} (ascii : byte < 0x80) :
    String.utf8EncodeChar (Char.ofNat byte.toNat) = [byte] := by
  have small : byte.toNat < 128 := UInt8.lt_iff_toNat_lt.mp ascii
  have number := toNat_asciiChar ascii
  rw [encode_ascii (by omega), number, UInt8.ofNat_toNat]

theorem following_lead {first : UInt8} {count : Nat} {low high : UInt8}
    (leads : following first = some (count, low, high)) : 0x80 ≤ first ∧ 0x80 ≤ low := by
  unfold following at leads
  simp only [UInt8.le_iff_toNat_le] at leads ⊢
  split_ifs at leads <;> simp only [Option.some.injEq, Prod.mk.injEq] at leads <;>
    obtain ⟨-, rfl, -⟩ := leads
  all_goals first | (subst first; decide) | (refine ⟨le_trans ?_ ‹_ ∧ _›.1, ?_⟩ <;> decide)

/-- Behind a byte that may lead a character, no ASCII byte is taken for a part of it. -/
theorem invalidLength_wide {bytes : List UInt8} (undecoded : decodeChar bytes = none) :
    ∀ byte ∈ bytes.take (invalidLength bytes), 0x80 ≤ byte := by
  cases bytes with
  | nil => simp
  | cons first bytes =>
    have wide : 0x80 ≤ first := by
      by_contra ascii
      have decoded := decodeChar_encode (Char.ofNat first.toNat) bytes
      rw [encode_asciiChar (UInt8.not_le.mp ascii), List.singleton_append, undecoded] at decoded
      cases decoded
    simp only [invalidLength]
    split
    · rename_i count low high second more leads
      split
      · rename_i range
        have low_wide := (following_lead leads).2
        have counted : more.take ((more.take (count - 1)).takeWhile isContinuation).length =
            (more.take (count - 1)).takeWhile isContinuation :=
          (List.prefix_iff_eq_take.mp ((List.takeWhile_prefix _).trans (List.take_prefix _ _))).symm
        rw [Nat.add_comm, List.take_succ_cons, List.take_succ_cons, counted]
        intro byte member
        rcases List.mem_cons.mp member with here | member
        · rw [here]
          exact wide
        · rcases List.mem_cons.mp member with here | member
          · rw [here]
            exact UInt8.le_trans low_wide range.1
          · have continues := List.mem_takeWhile_imp member
            simp only [isContinuation, Bool.and_eq_true, decide_eq_true_eq] at continues
            exact continues.1
      · simp [wide]
    · simp [wide]

theorem invalidLength_pos (first : UInt8) (bytes : List UInt8) : 0 < invalidLength (first :: bytes) := by
  simp only [invalidLength]
  split
  · split <;> omega
  · omega

/-! Decoding and encoding. -/

@[simp]
theorem utf8Encode_cons (c : Char) (text : List Char) :
    utf8Encode (c :: text) = String.utf8EncodeChar c ++ utf8Encode text := List.flatMap_cons

theorem utf8Encode_cons_ne_nil (c : Char) (text : List Char) : utf8Encode (c :: text) ≠ [] := by
  obtain ⟨lead, more, encoded, _⟩ := encode_lead c
  rw [utf8Encode_cons, encoded]
  exact List.cons_ne_nil _ _

@[simp]
theorem utf8Encode_append (text more : List Char) :
    utf8Encode (text ++ more) = utf8Encode text ++ utf8Encode more := List.flatMap_append

theorem toList_loop (bytes : ByteArray) (start : Nat) (read : List UInt8) :
    ByteArray.toList.loop bytes start read = read.reverse ++ bytes.data.toList.drop start := by
  induction left : bytes.size - start generalizing start read with
  | zero =>
    have size : bytes.data.toList.length ≤ start := by
      have length : bytes.data.toList.length = bytes.size := rfl
      omega
    rw [ByteArray.toList.loop, if_neg (by omega), List.drop_of_length_le size, List.append_nil]
  | succ left ih =>
    have within : start < bytes.data.toList.length := by
      have length : bytes.data.toList.length = bytes.size := rfl
      omega
    have here : bytes.get! start = bytes.data.toList[start] := getElem!_pos bytes.data start within
    rw [ByteArray.toList.loop, if_pos (by omega), ih (start + 1) _ (by omega), List.reverse_cons, List.append_assoc,
      List.singleton_append, here, ← List.drop_eq_getElem_cons within]

theorem toList_toUTF8 (text : String) : text.toUTF8.toList = utf8Encode text.toList := by
  rw [ByteArray.toList, toList_loop]
  have bytes : text.toUTF8 = text.toList.utf8Encode := String.utf8Encode_toList.symm
  rw [bytes, List.utf8Encode, List.toList_data_toByteArray]
  rfl

theorem drop_encode (c : Char) (bytes : List UInt8) :
    (String.utf8EncodeChar c ++ bytes).drop c.utf8Size = bytes := by
  rw [← String.length_utf8EncodeChar, List.drop_left]

theorem utf8Decode_eq_some {bytes : List UInt8} {text : List Char} (decoded : utf8Decode bytes = some text) :
    utf8Encode text = bytes := by
  unfold utf8Decode at decoded
  generalize bytes.length = fuel at decoded
  induction fuel generalizing bytes text with
  | zero =>
    cases bytes with
    | nil =>
      cases decoded
      rfl
    | cons first bytes => cases decoded
  | succ fuel ih =>
    cases bytes with
    | nil =>
      cases decoded
      rfl
    | cons first bytes =>
      rw [utf8DecodeFor] at decoded
      · obtain ⟨c, here, decoded⟩ := Option.bind_eq_some_iff.mp decoded
        obtain ⟨later, there, decoded⟩ := Option.bind_eq_some_iff.mp decoded
        cases decoded
        obtain ⟨rest, split⟩ := decodeChar_eq_some here
        rw [split, drop_encode] at there
        rw [utf8Encode_cons, ih there, split]
      · simp

theorem utf8Decode_encode (text : List Char) : utf8Decode (utf8Encode text) = some text := by
  have enough : ∀ fuel, (utf8Encode text).length ≤ fuel → utf8DecodeFor fuel (utf8Encode text) = some text := by
    induction text with
    | nil =>
      intro fuel _
      cases fuel <;> rfl
    | cons c text ih =>
      intro fuel room
      have positive := c.utf8Size_pos
      rw [utf8Encode_cons, List.length_append, String.length_utf8EncodeChar] at room
      obtain ⟨left, rfl⟩ : ∃ left, fuel = left + 1 := ⟨fuel - 1, by omega⟩
      have filled : String.utf8EncodeChar c ++ utf8Encode text ≠ [] := by
        intro empty
        have length := congrArg List.length empty
        rw [List.length_append, String.length_utf8EncodeChar, List.length_nil] at length
        omega
      rw [utf8Encode_cons, utf8DecodeFor, decodeChar_encode]
      · simp only [Option.bind_eq_bind, Option.bind_some, drop_encode]
        rw [ih left (by omega)]
        rfl
      · exact filled
  exact enough _ (Nat.le_refl _)

theorem utf8DecodeLossyFor_enough {fuel other : Nat} {bytes : List UInt8} (enough : bytes.length ≤ fuel)
    (enoughOther : bytes.length ≤ other) : utf8DecodeLossyFor fuel bytes = utf8DecodeLossyFor other bytes := by
  induction fuel generalizing bytes other with
  | zero =>
    rw [List.length_eq_zero_iff.mp (Nat.le_zero.mp enough)]
    cases other <;> rfl
  | succ fuel ih =>
    cases bytes with
    | nil => cases other <;> rfl
    | cons first bytes =>
      cases other with
      | zero => cases enoughOther
      | succ other =>
        rw [List.length_cons] at enough enoughOther
        have shorter : ∀ count, 0 < count → ((first :: bytes).drop count).length ≤ bytes.length := by
          intro count positive
          rw [List.length_drop, List.length_cons]
          omega
        rw [utf8DecodeLossyFor, utf8DecodeLossyFor]
        · cases decodeChar (first :: bytes) with
          | some c =>
            have length := shorter c.utf8Size c.utf8Size_pos
            exact congrArg (List.cons c) (ih (by omega) (by omega))
          | none =>
            have length := shorter _ (invalidLength_pos first bytes)
            exact congrArg (List.cons _) (ih (by omega) (by omega))
        · simp
        · simp

theorem utf8DecodeLossy_char (c : Char) (bytes : List UInt8) :
    utf8DecodeLossy (String.utf8EncodeChar c ++ bytes) = c :: utf8DecodeLossy bytes := by
  have positive := c.utf8Size_pos
  have length : (String.utf8EncodeChar c ++ bytes).length = c.utf8Size + bytes.length := by
    rw [List.length_append, String.length_utf8EncodeChar]
  rw [utf8DecodeLossy, length, show c.utf8Size + bytes.length = c.utf8Size - 1 + bytes.length + 1 by omega,
    utf8DecodeLossyFor]
  · rw [decodeChar_encode]
    simp only [drop_encode]
    rw [utf8DecodeLossyFor_enough (by omega) (Nat.le_refl _)]
    rfl
  · intro empty
    have none_left := congrArg List.length empty
    rw [length, List.length_nil] at none_left
    omega

theorem utf8DecodeLossy_invalid {first : UInt8} {bytes : List UInt8} (undecoded : decodeChar (first :: bytes) = none) :
    utf8DecodeLossy (first :: bytes) =
      '\uFFFD' :: utf8DecodeLossy ((first :: bytes).drop (invalidLength (first :: bytes))) := by
  have positive := invalidLength_pos first bytes
  rw [utf8DecodeLossy, List.length_cons, utf8DecodeLossyFor]
  · simp only [undecoded]
    rw [utf8DecodeLossy]
    congr 1
    apply utf8DecodeLossyFor_enough
    · rw [List.length_drop, List.length_cons]
      omega
    · exact Nat.le_refl _
  · simp

theorem utf8DecodeLossy_append (text : List Char) (bytes : List UInt8) :
    utf8DecodeLossy (utf8Encode text ++ bytes) = text ++ utf8DecodeLossy bytes := by
  induction text with
  | nil => rfl
  | cons c text ih =>
    rw [utf8Encode_cons, List.append_assoc, utf8DecodeLossy_char, ih]
    rfl

theorem utf8DecodeLossy_encode (text : List Char) : utf8DecodeLossy (utf8Encode text) = text := by
  have whole := utf8DecodeLossy_append text []
  rwa [List.append_nil, show utf8DecodeLossy [] = [] from rfl, List.append_nil] at whole

/-! A byte that continues no character starts one, whatever stands before it. -/

section Cut

variable {byte : UInt8}

theorem takeWhile_continuation (starts : isContinuation byte = false) (count : Nat) (more after : List UInt8) :
    ((more ++ byte :: after).take count).takeWhile isContinuation = (more.take count).takeWhile isContinuation := by
  induction more generalizing count with
  | nil => cases count <;> simp [starts]
  | cons item more ih =>
    cases count with
    | zero => rfl
    | succ count =>
      rw [List.cons_append, List.take_succ_cons, List.take_succ_cons, List.takeWhile_cons, List.takeWhile_cons, ih]

theorem following_within {first : UInt8} {count : Nat} {low high : UInt8}
    (leads : following first = some (count, low, high)) (inside : low ≤ byte ∧ byte ≤ high) :
    isContinuation byte = true := by
  unfold following at leads
  simp only [isContinuation, UInt8.le_iff_toNat_le, Bool.and_eq_true, decide_eq_true_eq] at leads inside ⊢
  split_ifs at leads <;> simp only [Option.some.injEq, Prod.mk.injEq] at leads <;>
    obtain ⟨-, rfl, rfl⟩ := leads <;> exact ⟨le_trans (by decide) inside.1, le_trans inside.2 (by decide)⟩

theorem invalidLength_append (starts : isContinuation byte = false) (first : UInt8) (more after : List UInt8) :
    invalidLength (first :: more ++ byte :: after) = invalidLength (first :: more) := by
  cases leads : following first with
  | none => cases more <;> simp [invalidLength, leads]
  | some found =>
    obtain ⟨count, low, high⟩ := found
    cases more with
    | nil =>
      have outside : ¬ (low ≤ byte ∧ byte ≤ high) := by
        intro inside
        rw [following_within leads inside] at starts
        cases starts
      simp [invalidLength, leads, outside]
    | cons second more => simp [invalidLength, leads, takeWhile_continuation starts]

theorem invalidLength_le (first : UInt8) (more : List UInt8) :
    invalidLength (first :: more) ≤ (first :: more).length := by
  cases leads : following first with
  | none => simp [invalidLength, leads]
  | some found =>
    cases more with
    | nil => simp [invalidLength, leads]
    | cons second more =>
      have short := (List.takeWhile_prefix isContinuation (l := more.take (found.1 - 1))).length_le
      rw [List.length_take] at short
      simp only [invalidLength, leads, List.length_cons]
      split <;> omega

theorem prefix_of_decoded (starts : isContinuation byte = false) {c : Char} {first : UInt8}
    {more after rest : List UInt8} (same : first :: more ++ byte :: after = String.utf8EncodeChar c ++ rest) :
    ∃ left, first :: more = String.utf8EncodeChar c ++ left := by
  have short : (String.utf8EncodeChar c).length ≤ (first :: more).length := by
    obtain ⟨lead, others, encoded, _, continued⟩ := encode_lead c
    by_contra long
    have within : (first :: more) ++ [byte] <+: String.utf8EncodeChar c := by
      apply List.prefix_of_prefix_length_le _ ⟨rest, same.symm⟩
      · rw [List.length_append, List.length_singleton]
        omega
      · exact ⟨after, by simp⟩
    rw [encoded, List.cons_append, List.cons_prefix_cons] at within
    have inside := continued byte (within.2.subset (by simp))
    rw [starts] at inside
    cases inside
  obtain ⟨left, split⟩ := List.prefix_of_prefix_length_le ⟨rest, same.symm⟩ ⟨byte :: after, rfl⟩ short
  exact ⟨left, split.symm⟩

theorem utf8DecodeLossy_cut (starts : isContinuation byte = false) (before after : List UInt8) :
    utf8DecodeLossy (before ++ byte :: after) = utf8DecodeLossy before ++ utf8DecodeLossy (byte :: after) := by
  induction length : before.length using Nat.strong_induction_on generalizing before with
  | _ size ih =>
    cases before with
    | nil => rfl
    | cons first more =>
      cases decoded : decodeChar (first :: more ++ byte :: after) with
      | some c =>
        obtain ⟨rest, same⟩ := decodeChar_eq_some decoded
        obtain ⟨left, split⟩ := prefix_of_decoded starts same
        have positive := c.utf8Size_pos
        have shorter := congrArg List.length split
        rw [List.length_append, String.length_utf8EncodeChar] at shorter
        rw [split, List.append_assoc, utf8DecodeLossy_char, utf8DecodeLossy_char, ih left.length (by omega) left rfl]
        rfl
      | none =>
        have undecoded : decodeChar (first :: more) = none := by
          cases found : decodeChar (first :: more) with
          | none => rfl
          | some c =>
            obtain ⟨left, split⟩ := decodeChar_eq_some found
            rw [split, List.append_assoc, decodeChar_encode] at decoded
            cases decoded
        have positive := invalidLength_pos first more
        have bound := invalidLength_le first more
        have later := ih ((first :: more).drop (invalidLength (first :: more))).length
          (by rw [List.length_drop]; omega) _ rfl
        rw [utf8DecodeLossy_invalid undecoded, List.cons_append, utf8DecodeLossy_invalid (by exact decoded),
          ← List.cons_append, invalidLength_append starts, List.drop_append_of_le_length bound, later]
        rfl

/-- What a text is encoded to is decoded to it, whatever bytes stand around it. -/
theorem utf8DecodeLossy_around (before after : List UInt8) (c : Char) (text : List Char) :
    utf8DecodeLossy (before ++ (utf8Encode (c :: text) ++ after)) =
      utf8DecodeLossy before ++ (c :: text ++ utf8DecodeLossy after) := by
  obtain ⟨lead, more, encoded, starts, _⟩ := encode_lead c
  have whole := utf8DecodeLossy_append (c :: text) after
  rw [utf8Encode_cons, encoded] at whole ⊢
  rw [List.cons_append, List.cons_append] at whole ⊢
  rw [utf8DecodeLossy_cut starts, whole]

end Cut

/-! What becomes of ASCII. -/

def asciiByte (c : Char) : UInt8 := UInt8.ofNat c.toNat

/-- The text is the bytes with every ASCII byte for its character, and with characters outside ASCII for
    the stretches between. -/
inductive SameAscii : List UInt8 → List Char → Prop
  | nil : SameAscii [] []
  | ascii {c : Char} {bytes : List UInt8} {text : List Char} (small : c.toNat < 128)
      (later : SameAscii bytes text) : SameAscii (asciiByte c :: bytes) (c :: text)
  | wide {c : Char} {stretch bytes : List UInt8} {text : List Char} (outside : 128 ≤ c.toNat)
      (filled : stretch ≠ []) (high : ∀ byte ∈ stretch, 0x80 ≤ byte) (later : SameAscii bytes text) :
      SameAscii (stretch ++ bytes) (c :: text)

theorem SameAscii.char (c : Char) {bytes : List UInt8} {text : List Char} (later : SameAscii bytes text) :
    SameAscii (String.utf8EncodeChar c ++ bytes) (c :: text) := by
  rcases Nat.lt_or_ge c.toNat 128 with small | outside
  · rw [encode_ascii small]
    exact .ascii small later
  · apply SameAscii.wide outside _ (encode_wide outside) later
    apply List.ne_nil_of_length_pos
    rw [String.length_utf8EncodeChar]
    exact c.utf8Size_pos

theorem sameAscii_lossy (bytes : List UInt8) : SameAscii bytes (utf8DecodeLossy bytes) := by
  induction length : bytes.length using Nat.strong_induction_on generalizing bytes with
  | _ size ih =>
    cases bytes with
    | nil => exact .nil
    | cons first bytes =>
      cases decoded : decodeChar (first :: bytes) with
      | some c =>
        obtain ⟨rest, split⟩ := decodeChar_eq_some decoded
        have positive := c.utf8Size_pos
        have shorter := congrArg List.length split
        rw [List.length_append, String.length_utf8EncodeChar] at shorter
        rw [split, utf8DecodeLossy_char]
        exact SameAscii.char c (ih rest.length (by omega) rest rfl)
      | none =>
        have positive := invalidLength_pos first bytes
        rw [List.length_cons] at length
        have later := ih ((first :: bytes).drop (invalidLength (first :: bytes))).length
          (by rw [List.length_drop, List.length_cons]; omega) _ rfl
        have cut := List.take_append_drop (invalidLength (first :: bytes)) (first :: bytes)
        have filled : (first :: bytes).take (invalidLength (first :: bytes)) ≠ [] := by
          rw [Ne, List.take_eq_nil_iff]
          simp
          omega
        have joined := SameAscii.wide (c := '\uFFFD') (by decide) filled (invalidLength_wide decoded) later
        rw [cut] at joined
        rw [utf8DecodeLossy_invalid decoded]
        exact joined

theorem sameAscii_encode (text : List Char) : SameAscii (utf8Encode text) text := by
  induction text with
  | nil => exact .nil
  | cons c text ih =>
    rw [utf8Encode_cons]
    exact SameAscii.char c ih

def Ascii (text : List Char) : Prop := ∀ c ∈ text, c.toNat < 128

instance (text : List Char) : Decidable (Ascii text) := List.decidableBAll (fun c : Char => c.toNat < 128) text

theorem asciiByte_small {c : Char} (small : c.toNat < 128) : asciiByte c < 0x80 := by
  rw [UInt8.lt_iff_toNat_lt, asciiByte, UInt8.toNat_ofNat_of_lt' (show c.toNat < 2 ^ 8 by omega)]
  exact small

theorem asciiByte_inj {c other : Char} (small : c.toNat < 128) (otherSmall : other.toNat < 128)
    (same : asciiByte c = asciiByte other) : c = other := by
  have number := congrArg UInt8.toNat same
  simp only [asciiByte, UInt8.toNat_ofNat_of_lt' (show c.toNat < 2 ^ 8 by omega),
    UInt8.toNat_ofNat_of_lt' (show other.toNat < 2 ^ 8 by omega)] at number
  exact Char.toNat_inj.mp number

section Patterns

variable {bytes : List UInt8} {text pattern : List Char}

theorem utf8Encode_ascii (ascii : Ascii pattern) : utf8Encode pattern = pattern.map asciiByte := by
  induction pattern with
  | nil => rfl
  | cons c pattern ih =>
    have small := ascii c (List.mem_cons_self ..)
    rw [utf8Encode_cons, encode_ascii small, ih fun d member => ascii d (List.mem_cons_of_mem _ member)]
    rfl

theorem SameAscii.prefix_iff (same : SameAscii bytes text) (ascii : Ascii pattern) :
    pattern.map asciiByte <+: bytes ↔ pattern <+: text := by
  induction pattern generalizing bytes text with
  | nil => simp
  | cons c pattern ih =>
    have small := ascii c (List.mem_cons_self ..)
    have others : Ascii pattern := fun d member => ascii d (List.mem_cons_of_mem _ member)
    cases same with
    | nil => simp
    | ascii smallOther later =>
      rw [List.map_cons, List.cons_prefix_cons, List.cons_prefix_cons, ih later others]
      constructor
      · intro found
        exact ⟨asciiByte_inj small smallOther found.1, found.2⟩
      · intro found
        exact ⟨congrArg asciiByte found.1, found.2⟩
    | wide outside filled high later =>
      obtain ⟨first, stretch, rfl⟩ := List.exists_cons_of_ne_nil filled
      rw [List.map_cons, List.cons_append, List.cons_prefix_cons, List.cons_prefix_cons]
      constructor
      · intro found
        have low := asciiByte_small small
        have wide := high first (List.mem_cons_self ..)
        rw [found.1] at low
        exact absurd wide (UInt8.not_le.mpr low)
      · intro found
        rw [found.1] at small
        omega

theorem infix_append_wide {stretch : List UInt8} (ascii : Ascii pattern) (filled : pattern ≠ [])
    (high : ∀ byte ∈ stretch, 0x80 ≤ byte) :
    pattern.map asciiByte <:+: stretch ++ bytes ↔ pattern.map asciiByte <:+: bytes := by
  induction stretch with
  | nil => rfl
  | cons first stretch ih =>
    have apart : ¬ pattern.map asciiByte <+: first :: (stretch ++ bytes) := by
      obtain ⟨c, rest, rfl⟩ := List.exists_cons_of_ne_nil filled
      have low := asciiByte_small (ascii c (List.mem_cons_self ..))
      have wide := high first (List.mem_cons_self ..)
      rw [List.map_cons, List.cons_prefix_cons]
      intro found
      rw [found.1] at low
      exact absurd wide (UInt8.not_le.mpr low)
    rw [List.cons_append, List.infix_cons_iff, or_iff_right apart]
    exact ih fun byte member => high byte (List.mem_cons_of_mem _ member)

/-- A text of ASCII is found in the decoded text exactly where its bytes are. -/
theorem SameAscii.infix_iff (same : SameAscii bytes text) (ascii : Ascii pattern) (filled : pattern ≠ []) :
    pattern.map asciiByte <:+: bytes ↔ pattern <:+: text := by
  induction same with
  | nil => simp
  | ascii smallOther later ih =>
    have here := (SameAscii.ascii smallOther later).prefix_iff ascii
    rw [List.infix_cons_iff, List.infix_cons_iff, here, ih]
  | @wide d stretch bytes text outside nonempty high later ih =>
    have apart : ¬ pattern <+: d :: text := by
      obtain ⟨c, rest, rfl⟩ := List.exists_cons_of_ne_nil filled
      have small := ascii c (List.mem_cons_self ..)
      rw [List.cons_prefix_cons]
      intro found
      rw [found.1] at small
      omega
    rw [infix_append_wide ascii filled high, ih, List.infix_cons_iff, or_iff_right apart]

theorem SameAscii.mem_iff {c : Char} (same : SameAscii bytes text) (small : c.toNat < 128) :
    asciiByte c ∈ bytes ↔ c ∈ text := by
  have alone : Ascii [c] := fun d member => by rwa [List.mem_singleton.mp member]
  have found := same.infix_iff alone (List.cons_ne_nil _ _)
  rwa [List.map_singleton, List.singleton_infix_iff, List.singleton_infix_iff] at found

theorem SameAscii.count (same : SameAscii bytes text) :
    text.countP (fun c => c.toNat < 128) = bytes.countP (fun byte => byte < 0x80) := by
  induction same with
  | nil => rfl
  | ascii small later ih =>
    rw [List.countP_cons_of_pos (by simpa using small),
      List.countP_cons_of_pos (by simpa using asciiByte_small small), ih]
  | wide outside filled high later ih =>
    have none_small : List.countP (fun byte : UInt8 => byte < 0x80) _ = 0 :=
      List.countP_eq_zero.mpr fun byte member => by simpa using high byte member
    rw [List.countP_cons_of_neg (by simpa using outside), List.countP_append, none_small, ih, Nat.zero_add]

/-- A text of ASCII whose bytes stand in an encoded text stands in the text. -/
theorem prefix_drop_encode (ascii : Ascii pattern) (filled : pattern ≠ []) {offset : Nat}
    (found : pattern.map asciiByte <+: (utf8Encode text).drop offset) :
    ∃ before after, text = before ++ (pattern ++ after) ∧ (utf8Encode before).length = offset := by
  induction text generalizing offset with
  | nil =>
    rw [show (utf8Encode []).drop offset = [] from List.drop_nil, List.prefix_nil, List.map_eq_nil_iff] at found
    exact absurd found filled
  | cons c text ih =>
    rw [utf8Encode_cons] at found
    by_cases behind : (String.utf8EncodeChar c).length ≤ offset
    · rw [List.drop_append, List.drop_of_length_le behind, List.nil_append] at found
      obtain ⟨before, after, rfl, length⟩ := ih found
      refine ⟨c :: before, after, rfl, ?_⟩
      rw [utf8Encode_cons, List.length_append, length]
      omega
    · rcases Nat.eq_zero_or_pos offset with rfl | inside
      · rw [List.drop_zero, ← utf8Encode_cons] at found
        obtain ⟨after, same⟩ := ((sameAscii_encode (c :: text)).prefix_iff ascii).mp found
        exact ⟨[], after, same.symm, rfl⟩
      · -- Inside a character no byte is of ASCII.
        have wide : 128 ≤ c.toNat := by
          by_contra small
          rw [encode_ascii (by omega), List.length_singleton] at behind
          omega
        obtain ⟨d, pattern, rfl⟩ := List.exists_cons_of_ne_nil filled
        rw [List.drop_append_of_le_length (by omega)] at found
        obtain ⟨first, rest, cut⟩ : ∃ first rest, (String.utf8EncodeChar c).drop offset = first :: rest := by
          apply List.exists_cons_of_ne_nil
          rw [Ne, List.drop_eq_nil_iff]
          omega
        have member : first ∈ String.utf8EncodeChar c := List.mem_of_mem_drop (by rw [cut]; exact List.mem_cons_self)
        have high := encode_wide wide first member
        rw [cut, List.map_cons, List.cons_append, List.cons_prefix_cons] at found
        have low := asciiByte_small (ascii d List.mem_cons_self)
        rw [found.1] at low
        exact absurd high (UInt8.not_le.mpr low)

/-- A text of ASCII is found in the first bytes of an encoded text exactly where it ends within them. -/
theorem infix_take_encode (ascii : Ascii pattern) (filled : pattern ≠ []) {count : Nat} :
    pattern.map asciiByte <:+: (utf8Encode text).take count ↔
      ∃ before after, text = before ++ (pattern ++ after) ∧ (utf8Encode (before ++ pattern)).length ≤ count := by
  have length : ∀ before : List Char, (utf8Encode (before ++ pattern)).length =
      (utf8Encode before).length + (pattern.map asciiByte).length := by
    intro before
    rw [utf8Encode_append, List.length_append, utf8Encode_ascii ascii]
  constructor
  · rintro ⟨lead, rest, same⟩
    have whole := List.take_append_drop count (utf8Encode text)
    have found : pattern.map asciiByte <+: (utf8Encode text).drop lead.length := by
      rw [← whole, ← same, List.append_assoc, List.append_assoc, List.drop_left]
      exact List.prefix_append _ _
    obtain ⟨before, after, textIs, bytes⟩ := prefix_drop_encode ascii filled found
    refine ⟨before, after, textIs, ?_⟩
    have bound := congrArg List.length same
    rw [List.length_append, List.length_append, List.length_take] at bound
    rw [length, bytes]
    omega
  · rintro ⟨before, after, rfl, bound⟩
    rw [← List.append_assoc, utf8Encode_append (before ++ pattern), List.take_append, List.take_of_length_le bound]
    apply List.IsInfix.trans _ (List.prefix_append _ _).isInfix
    rw [utf8Encode_append, utf8Encode_ascii ascii]
    exact (List.suffix_append _ _).isInfix

end Patterns

/-! A start of a text, cut anywhere. -/

/-- What cuts a text short inside a character lacks the rest of that character. -/
theorem utf8_complete {bytes : List UInt8} {text : List Char} (begins : bytes <+: utf8Encode text) :
    ∃ tail whole, bytes ++ tail = utf8Encode whole ∧ tail.length ≤ 3 ∧ ∀ byte ∈ tail, 0x80 ≤ byte := by
  induction text generalizing bytes with
  | nil =>
    rw [List.prefix_nil.mp begins]
    exact ⟨[], [], rfl, by decide, fun byte impossible => nomatch impossible⟩
  | cons c text ih =>
    rw [utf8Encode_cons] at begins
    rcases prefix_append_cases begins with ⟨⟨tail, whole⟩, short⟩ | ⟨part, rfl, behind⟩
    · by_cases empty : bytes = []
      · rw [empty]
        exact ⟨[], [], rfl, by decide, fun byte impossible => nomatch impossible⟩
      · have positive := List.length_pos_iff.mpr empty
        have four : (String.utf8EncodeChar c).length ≤ 4 := by
          rw [String.length_utf8EncodeChar]
          exact c.utf8Size_le_four
        have length := congrArg List.length whole
        rw [List.length_append] at length
        have wide : 128 ≤ c.toNat := by
          by_contra small
          rw [encode_ascii (by omega), List.length_singleton] at length
          rw [encode_ascii (by omega), List.length_singleton] at short
          omega
        refine ⟨tail, [c], by rw [whole, utf8Encode_cons]; exact (List.append_nil _).symm, by omega, ?_⟩
        intro byte member
        exact encode_wide wide byte (by rw [← whole]; exact List.mem_append_right _ member)
    · obtain ⟨tail, whole, same, small, high⟩ := ih behind
      refine ⟨tail, c :: whole, ?_, small, high⟩
      rw [utf8Encode_cons, List.append_assoc, same]

end Text
