import OpenShell.Lib.IpAddr
import OpenShell.Lib.Numbers

/-! An address that has been written is read back. -/

namespace Net

open Text

/-! Numbers. -/

section Digits

variable {radix : Nat} (base : 1 < radix) (read : ∀ digit < radix, toDigit radix digit.digitChar = some digit)

include base read

/-- A written number is read back, whatever stands behind it. -/
theorem readNumber_toDigits {maxDigits bound value : Nat} {rest : List Char} (allowZeroPrefix : Bool)
    (room : 0 < maxDigits) (short : value < radix ^ maxDigits) (inside : value < bound)
    (stops : ∀ c ∈ rest.head?, toDigit radix c = none) :
    readNumber radix maxDigits bound allowZeroPrefix (Nat.toDigits radix value ++ rest) = some (value, rest) := by
  have taken : (Nat.toDigits radix value ++ rest).takeWhile (fun c => (toDigit radix c).isSome) =
      Nat.toDigits radix value := by
    rw [List.takeWhile_append_of_pos (toDigit_of_mem_toDigits base read value)]
    cases rest with
    | nil => simp
    | cons c rest =>
      have stop : toDigit radix c = none := stops c rfl
      rw [List.takeWhile_cons_of_neg (by simp [stop]), List.append_nil]
  have fits : (Nat.toDigits radix value).length ≤ maxDigits := (Nat.length_toDigits_le_iff base room).mpr short
  have unpadded : (Nat.toDigits radix value).head? = some '0' → (Nat.toDigits radix value).length ≤ 1 := by
    intro zero
    have none : value = 0 := by
      by_contra positive
      exact head_toDigits base read (Nat.pos_of_ne_zero positive) zero
    rw [none, Nat.toDigits_zero]
    exact le_refl 1
  unfold readNumber
  simp only [taken, foldl_toDigits base read value]
  rw [if_neg (by omega), if_neg (by simp [Nat.toDigits_ne_nil]), if_neg (by simpa using fun _ => unpadded), if_pos inside,
    List.drop_left]

end Digits

/-! Numbers in groups. -/

theorem ofDigits_append (base : Nat) (digits : List Nat) (last : Nat) :
    ofDigits base (digits ++ [last]) = ofDigits base digits * base + last := by
  unfold ofDigits
  rw [List.foldl_append, List.foldl_cons, List.foldl_nil]

/-- The places of a number, the highest first. -/
theorem ofDigits_places (base count value : Nat) :
    ofDigits base ((List.range count).map fun index => value / base ^ (count - 1 - index) % base) =
      value % base ^ count := by
  induction count generalizing value with
  | zero =>
    rw [Nat.pow_zero, Nat.mod_one]
    rfl
  | succ count ih =>
    have shifted : ((List.range count).map fun index => value / base ^ (count + 1 - 1 - index) % base) =
        (List.range count).map fun index => value / base / base ^ (count - 1 - index) % base := by
      apply List.map_congr_left
      intro index member
      have below := List.mem_range.mp member
      rw [Nat.div_div_eq_div_mul, ← Nat.pow_succ']
      congr 3
      omega
    rw [List.range_succ, List.map_append, List.map_cons, List.map_nil, ofDigits_append, shifted, ih, Nat.pow_succ',
      Nat.mod_mul]
    simp only [Nat.add_sub_cancel, Nat.sub_self, Nat.pow_zero, Nat.div_one]
    rw [Nat.mul_comm, Nat.add_comm]

/-! Version 4. -/

section Ipv4

theorem Ipv4Addr.text_toList (addr : Ipv4Addr) : addr.text.toList =
    Nat.toDigits 10 (addr.octet 0).toNat ++ '.' :: (Nat.toDigits 10 (addr.octet 1).toNat ++
      '.' :: (Nat.toDigits 10 (addr.octet 2).toNat ++ '.' :: Nat.toDigits 10 (addr.octet 3).toNat)) := by
  unfold Ipv4Addr.text
  rw [show (List.range 4) = [0, 1, 2, 3] from rfl]
  simp

theorem Ipv4Addr.ofOctets (addr : Ipv4Addr) :
    ofDigits 256 [(addr.octet 0).toNat, (addr.octet 1).toNat, (addr.octet 2).toNat, (addr.octet 3).toNat] =
      addr.bits.toNat := by
  have places := ofDigits_places 256 4 addr.bits.toNat
  rw [Nat.mod_eq_of_lt (show addr.bits.toNat < 256 ^ 4 from addr.bits.isLt)] at places
  rw [← places]
  simp only [Ipv4Addr.octet, BitVec.extractLsb'_toNat, Nat.shiftRight_eq_div_pow]
  rfl

theorem readOctet {octet : BitVec 8} {rest : List Char} (stops : ∀ c ∈ rest.head?, toDigit 10 c = none) :
    readNumber 10 3 256 false (Nat.toDigits 10 octet.toNat ++ rest) = some (octet.toNat, rest) := by
  have small := octet.isLt
  exact readNumber_toDigits (by decide) toDigit_decimal false (by decide) (by omega) (by omega) stops

/-- A written address is read back, if no digit follows. -/
theorem readIpv4Addr_text (addr : Ipv4Addr) {rest : List Char} (stops : ∀ c ∈ rest.head?, toDigit 10 c = none) :
    readIpv4Addr (addr.text.toList ++ rest) = some (addr, rest) := by
  have dot : ∀ (behind : List Char), ∀ c ∈ ('.' :: behind).head?, toDigit 10 c = none := by
    intro behind c member
    cases member
    decide
  have octets : readOctets 4 0 (addr.text.toList ++ rest) =
      some ([(addr.octet 0).toNat, (addr.octet 1).toNat, (addr.octet 2).toNat, (addr.octet 3).toNat], rest) := by
    rw [addr.text_toList]
    simp only [List.append_assoc, List.cons_append, readOctets, readSeparator, readGivenChar, lt_irrefl, if_false,
      Nat.zero_add, if_true, Option.bind_eq_bind, Option.bind_some, readOctet (dot _), Nat.zero_lt_succ,
      readOctet stops]
    rfl
  unfold readIpv4Addr
  rw [octets]
  simp only [Option.bind_eq_bind, Option.bind_some, addr.ofOctets, BitVec.ofNat_toNat, BitVec.setWidth_eq]
  rfl

theorem readIpv4Addr_whole (addr : Ipv4Addr) : readIpv4Addr addr.text.toList = some (addr, []) := by
  rw [← List.append_nil addr.text.toList]
  apply readIpv4Addr_text addr
  intro c member
  cases member

/-- An address of version 4 has dots. -/
theorem readIpv4Addr_dotless {text : List Char} (dotless : '.' ∉ text) : readIpv4Addr text = none := by
  have stuck : readOctets 4 0 text = none := by
    cases first : readNumber 10 3 256 false text with
    | none => simp [readOctets, readSeparator, first]
    | some read =>
      obtain ⟨octet, rest⟩ := read
      have behind : '.' ∉ rest := by
        unfold readNumber at first
        simp only at first
        split_ifs at first
        cases first
        exact fun member => dotless (List.mem_of_mem_drop member)
      have missing : readGivenChar '.' rest = none := by
        cases rest with
        | nil => rfl
        | cons c rest =>
          apply if_neg
          intro same
          exact behind (List.mem_cons.mpr (.inl same.symm))
      simp [readOctets, readSeparator, first, missing]
  unfold readIpv4Addr
  rw [stuck]
  rfl

end Ipv4

/-! Version 6. -/

section Ipv6

/-- Groups that stand behind others. -/
def behindGroups (groups : List Nat) : List Char := groups.flatMap fun group => ':' :: Nat.toDigits 16 group

/-- Groups as they are written from the given index on. -/
def writtenGroups (index : Nat) : List Nat → List Char
  | [] => []
  | group :: groups => (if 0 < index then [':'] else []) ++ (Nat.toDigits 16 group ++ behindGroups groups)

theorem writtenGroups_succ (index : Nat) (groups : List Nat) :
    writtenGroups (index + 1) groups = behindGroups groups := by
  cases groups <;> rfl

theorem intercalate_groups (groups : List Nat) :
    (":".intercalate (groups.map hexText)).toList = writtenGroups 0 groups := by
  have texts : (groups.map hexText).map String.toList = groups.map (Nat.toDigits 16) := by
    rw [List.map_map]
    apply List.map_congr_left
    intro group _
    exact String.toList_ofList
  rw [String.toList_intercalate, texts]
  cases groups with
  | nil => rfl
  | cons group groups =>
    show _ = Nat.toDigits 16 group ++ behindGroups groups
    clear texts
    induction groups generalizing group with
    | nil => simp [behindGroups]
    | cons next groups ih =>
      rw [List.map_cons, List.map_cons, List.intercalate_cons_cons, ← List.map_cons, ih next]
      simp [behindGroups]

theorem hex_dotless (value : Nat) : '.' ∉ Nat.toDigits 16 value := by
  intro member
  have digit := toDigit_of_mem_toDigits (by decide) toDigit_hex value '.' member
  revert digit
  decide

theorem behindGroups_dotless (groups : List Nat) : '.' ∉ behindGroups groups := by
  unfold behindGroups
  intro member
  obtain ⟨group, _, inside⟩ := List.mem_flatMap.mp member
  rcases List.mem_cons.mp inside with colon | digit
  · exact absurd colon (by decide)
  · exact hex_dotless group digit

theorem writtenGroups_dotless (index : Nat) (groups : List Nat) : '.' ∉ writtenGroups index groups := by
  cases groups with
  | nil => exact List.not_mem_nil
  | cons group groups =>
    have colon : '.' ∉ (if 0 < index then [':'] else []) := by
      split <;> decide
    simp only [writtenGroups, List.mem_append, not_or]
    exact ⟨colon, hex_dotless group, behindGroups_dotless groups⟩

/-- No further group can be read here. -/
structure Ends (rest : List Char) : Prop where
  dotless : '.' ∉ rest
  head : ∀ c ∈ rest.head?, toDigit 16 c = none
  stuck : ∀ index, (readSeparator ':' index rest).bind (readNumber 16 4 (2 ^ 16) true) = none

theorem ends_nil : Ends [] where
  dotless := List.not_mem_nil
  head c member := by cases member
  stuck index := by
    unfold readSeparator
    split <;> rfl

theorem readNumber_colon (text : List Char) : readNumber 16 4 (2 ^ 16) true (':' :: text) = none := by
  have none : (toDigit 16 ':').isSome = false := by decide
  unfold readNumber
  simp [none]

theorem ends_gap {text : List Char} (dotless : '.' ∉ text) : Ends (':' :: ':' :: text) where
  dotless := by simpa using dotless
  head c member := by
    cases member
    decide
  stuck index := by
    unfold readSeparator
    split
    · exact readNumber_colon text
    · exact readNumber_colon (':' :: text)

theorem readSeparator_dotless {index : Nat} {text : List Char} (dotless : '.' ∉ text) :
    (readSeparator ':' index text).bind readIpv4Addr = none := by
  unfold readSeparator
  split
  · cases text with
    | nil => rfl
    | cons c text =>
      by_cases colon : c = ':'
      · rw [readGivenChar, if_pos colon]
        exact readIpv4Addr_dotless fun member => dotless (List.mem_cons_of_mem c member)
      · rw [readGivenChar, if_neg colon]
        rfl
  · exact readIpv4Addr_dotless dotless

/-- Where no address of version 4 stands, a group of digits is read. -/
theorem readGroups_group {count index : Nat} {text : List Char}
    (absent : (readSeparator ':' index text).bind readIpv4Addr = none) :
    readGroups (count + 1) index text =
      ((readSeparator ':' index text).bind (readNumber 16 4 (2 ^ 16) true)).elim ([], false, text) fun read =>
        (read.1 :: (readGroups count (index + 1) read.2).1, (readGroups count (index + 1) read.2).2) := by
  have embedded : (do if count = 0 then none else readIpv4Addr (← readSeparator ':' index text)) = none := by
    split
    · rfl
    · exact absent
  rw [readGroups]
  simp only [embedded]
  cases (readSeparator ':' index text).bind (readNumber 16 4 (2 ^ 16) true) <;> rfl

theorem readGroups_ends {rest : List Char} (ends : Ends rest) (count index : Nat) :
    readGroups count index rest = ([], false, rest) := by
  cases count with
  | zero => rfl
  | succ count =>
    rw [readGroups_group (readSeparator_dotless ends.dotless), ends.stuck]
    rfl

/-- Written groups are read back. -/
theorem readGroups_written {groups : List Nat} {rest : List Char} (ends : Ends rest)
    (small : ∀ group ∈ groups, group < 2 ^ 16) (count index : Nat) (room : groups.length ≤ count) :
    readGroups count index (writtenGroups index groups ++ rest) = (groups, false, rest) := by
  induction groups generalizing count index with
  | nil => exact readGroups_ends ends count index
  | cons group groups ih =>
    obtain ⟨count, rfl⟩ : ∃ less, count = less + 1 := ⟨count - 1, by simp at room; omega⟩
    have dotless : '.' ∉ writtenGroups index (group :: groups) ++ rest := by
      rw [List.mem_append, not_or]
      exact ⟨writtenGroups_dotless index _, ends.dotless⟩
    have separated : readSeparator ':' index (writtenGroups index (group :: groups) ++ rest) =
        some (Nat.toDigits 16 group ++ (behindGroups groups ++ rest)) := by
      unfold readSeparator writtenGroups
      split <;> simp [readGivenChar]
    have stops : ∀ c ∈ (behindGroups groups ++ rest).head?, toDigit 16 c = none := by
      cases groups with
      | nil => exact ends.head
      | cons next groups =>
        intro c member
        cases member
        decide
    have first : readNumber 16 4 (2 ^ 16) true (Nat.toDigits 16 group ++ (behindGroups groups ++ rest)) =
        some (group, behindGroups groups ++ rest) :=
      readNumber_toDigits (by decide) toDigit_hex true (by decide) (small group List.mem_cons_self)
        (small group List.mem_cons_self) stops
    have later := ih (fun other member => small other (List.mem_cons_of_mem group member)) count (index + 1)
      (Nat.le_of_succ_le_succ room)
    rw [writtenGroups_succ] at later
    rw [readGroups_group (readSeparator_dotless dotless), separated, Option.bind_some, first, Option.elim_some, later]

/-- The segments from `run.1` on, `run.2` of them, are zeros. -/
def ZeroRun (segments : List Nat) (run : Nat × Nat) : Prop :=
  ∀ index, run.1 ≤ index → index < run.1 + run.2 → segments[index]? = some 0

theorem longestZeros_zeroRun {all : List Nat} (segments : List Nat) (index : Nat) (run longest : Nat × Nat)
    (left : all.drop index = segments) (current : ZeroRun all run) (adjacent : run.2 ≠ 0 → run.1 + run.2 = index)
    (found : ZeroRun all longest) : ZeroRun all (longestZeros segments index run longest) := by
  induction segments generalizing index run longest with
  | nil => exact found
  | cons segment segments ih =>
    obtain ⟨start, length⟩ := run
    have here : all[index]? = some segment := by
      rw [← Nat.add_zero index, ← List.getElem?_drop, left]
      rfl
    have further : all.drop (index + 1) = segments := by
      rw [← List.drop_drop, left]
      rfl
    unfold longestZeros
    split
    · rename_i zero
      rw [zero] at here
      have longer : ZeroRun all (if length = 0 then index else start, length + 1) := by
        intro place above below
        simp only at current adjacent above below
        by_cases last : place = index
        · rw [last, here]
        · apply current place
          · split_ifs at above below <;> omega
          · split_ifs at above below <;> omega
      have ending : (if length = 0 then index else start) + (length + 1) = index + 1 := by
        simp only at adjacent
        split_ifs <;> omega
      apply ih (index + 1) _ _ further longer (fun _ => ending)
      generalize (if length = 0 then index else start, length + 1) = wider at longer ⊢
      split
      · exact longer
      · exact found
    · apply ih (index + 1) _ _ further _ (fun positive => absurd rfl positive) found
      intro place _ below
      exact absurd below (by simp)

theorem zeroRun_split {segments : List Nat} {start length : Nat} (zeros : ZeroRun segments (start, length)) :
    segments.take start ++ List.replicate length 0 ++ segments.drop (start + length) = segments := by
  have middle : (segments.drop start).take length = List.replicate length 0 := by
    apply List.ext_getElem?
    intro index
    by_cases inside : index < length
    · rw [List.getElem?_take_of_lt inside, List.getElem?_drop, List.getElem?_replicate_of_lt inside]
      exact zeros _ (by simp) (by simp; omega)
    · rw [List.getElem?_eq_none (by simp; omega), List.getElem?_eq_none (by simp; omega)]
  rw [← middle, ← List.drop_drop, List.append_assoc, List.take_append_drop, List.take_append_drop]

theorem Ipv6Addr.ofSegments (addr : Ipv6Addr) :
    ofDigits (2 ^ 16) ((List.range 8).map fun index => (addr.segment index).toNat) = addr.bits.toNat := by
  have places := ofDigits_places (2 ^ 16) 8 addr.bits.toNat
  rw [Nat.mod_eq_of_lt (show addr.bits.toNat < (2 ^ 16) ^ 8 from addr.bits.isLt)] at places
  rw [← places]
  congr 1
  apply List.map_congr_left
  intro index member
  have below := List.mem_range.mp member
  simp only [Ipv6Addr.segment, BitVec.extractLsb'_toNat, Nat.shiftRight_eq_div_pow]
  rw [← Nat.pow_mul]
  congr 3
  omega

theorem readIpv6Addr_written (segments : List Nat) (eight : segments.length = 8)
    (small : ∀ segment ∈ segments, segment < 2 ^ 16) :
    readIpv6Addr (writtenGroups 0 segments) = some (⟨BitVec.ofNat 128 (ofDigits (2 ^ 16) segments)⟩, []) := by
  have read := readGroups_written ends_nil small 8 0 (le_of_eq eight)
  rw [List.append_nil] at read
  unfold readIpv6Addr
  simp only [read, eight, if_true]
  rfl

theorem readIpv6Addr_gap {head tail : List Nat} (shorter : head.length + tail.length < 8)
    (small : ∀ group ∈ head ++ tail, group < 2 ^ 16) :
    readIpv6Addr (writtenGroups 0 head ++ ':' :: ':' :: writtenGroups 0 tail) =
      some (⟨BitVec.ofNat 128 (ofDigits (2 ^ 16)
        (head ++ List.replicate (8 - head.length - tail.length) 0 ++ tail))⟩, []) := by
  have first := readGroups_written (ends_gap (writtenGroups_dotless 0 tail)) (fun group member => small group (List.mem_append_left _ member))
    8 0 (by omega)
  have second := readGroups_written ends_nil (fun group member => small group (List.mem_append_right _ member))
    (8 - (head.length + 1)) 0 (by omega)
  rw [List.append_nil] at second
  unfold readIpv6Addr
  simp only [first, show head.length ≠ 8 by omega, if_false, Bool.false_eq_true, readGivenChar, if_true,
    Option.bind_eq_bind, Option.bind_some, second]
  rfl

theorem Ipv6Addr.segments_small (addr : Ipv6Addr) :
    ∀ segment ∈ (List.range 8).map fun index => (addr.segment index).toNat, segment < 2 ^ 16 := by
  intro segment member
  obtain ⟨index, _, rfl⟩ := List.mem_map.mp member
  exact (addr.segment index).isLt

theorem readIpv4Addr_undigit {c : Char} (undigit : toDigit 10 c = none) (text : List Char) :
    readIpv4Addr (c :: text) = none := by
  have unread : readNumber 10 3 256 false (c :: text) = none := by
    unfold readNumber
    simp [undigit]
  unfold readIpv4Addr
  simp [readOctets, readSeparator, unread]

theorem readGroups_embedded (addr : Ipv4Addr) (count index : Nat) :
    readGroups (count + 2) (index + 1) (':' :: addr.text.toList) =
      ([addr.bits.toNat / 2 ^ 16, addr.bits.toNat % 2 ^ 16], true, []) := by
  have read := readIpv4Addr_whole addr
  rw [readGroups]
  simp [readSeparator, readGivenChar, read]

/-- An address of version 4 behind `::ffff:`. -/
theorem readIpv6Addr_mapped (addr : Ipv4Addr) :
    readIpv6Addr (':' :: ':' :: (Nat.toDigits 16 0xFFFF ++ ':' :: addr.text.toList)) =
      some (⟨BitVec.ofNat 128 (0xFFFF * 2 ^ 32 + addr.bits.toNat)⟩, []) := by
  have head : readGroups 8 0 (':' :: ':' :: (Nat.toDigits 16 0xFFFF ++ ':' :: addr.text.toList)) =
      ([], false, ':' :: ':' :: (Nat.toDigits 16 0xFFFF ++ ':' :: addr.text.toList)) := by
    have absent : (readSeparator ':' 0 (':' :: ':' :: (Nat.toDigits 16 0xFFFF ++ ':' :: addr.text.toList))).bind
        readIpv4Addr = none := readIpv4Addr_undigit (by decide) _
    rw [readGroups_group absent]
    simp only [readSeparator, lt_irrefl, if_false, Option.bind_some, readNumber_colon, Option.elim_none]
  have group : readNumber 16 4 (2 ^ 16) true (Nat.toDigits 16 0xFFFF ++ ':' :: addr.text.toList) =
      some (0xFFFF, ':' :: addr.text.toList) := by
    apply readNumber_toDigits (by decide) toDigit_hex true (by decide) (by decide) (by decide)
    intro c member
    cases member
    decide
  have tail : readGroups 7 0 (Nat.toDigits 16 0xFFFF ++ ':' :: addr.text.toList) =
      ([0xFFFF, addr.bits.toNat / 2 ^ 16, addr.bits.toNat % 2 ^ 16], true, []) := by
    have absent : (readSeparator ':' 0 (Nat.toDigits 16 0xFFFF ++ ':' :: addr.text.toList)).bind readIpv4Addr = none :=
      readIpv4Addr_undigit (by decide) _
    rw [readGroups_group absent]
    simp only [readSeparator, lt_irrefl, if_false, Option.bind_some, group, Option.elim_some, readGroups_embedded]
  have value : ofDigits (2 ^ 16) [0, 0, 0, 0, 0, 0xFFFF, addr.bits.toNat / 2 ^ 16, addr.bits.toNat % 2 ^ 16] =
      0xFFFF * 2 ^ 32 + addr.bits.toNat := by
    simp only [ofDigits, List.foldl_cons, List.foldl_nil]
    omega
  rw [← value]
  unfold readIpv6Addr
  simp only [head, List.length_nil, Nat.reduceEqDiff, if_false, Bool.false_eq_true, readGivenChar, if_true,
    Option.bind_eq_bind, Option.bind_some, tail]
  rfl

theorem bits_of_mapped {addr : Ipv6Addr} {inner : Ipv4Addr} (mapped : addr.toIpv4Mapped = some inner) :
    0xFFFF * 2 ^ 32 + inner.bits.toNat = addr.bits.toNat := by
  obtain ⟨block, low⟩ := toIpv4Mapped_eq_some.mp mapped
  have bound := addr.bits.isLt
  unfold InBlock at block
  rw [low, BitVec.extractLsb'_toNat, Nat.shiftRight_zero]
  simp only [BitVec.toNat_ofNat] at block
  omega

theorem readIpv6Addr_text (addr : Ipv6Addr) : readIpv6Addr addr.text.toList = some (addr, []) := by
  have whole : (⟨BitVec.ofNat 128 addr.bits.toNat⟩ : Ipv6Addr) = addr := by simp
  unfold Ipv6Addr.text
  cases mapped : addr.toIpv4Mapped with
  | some inner =>
    have read := readIpv6Addr_mapped inner
    rw [bits_of_mapped mapped, whole] at read
    simp only [String.toList_append]
    exact read
  | none =>
    have bits := addr.ofSegments
    have small := addr.segments_small
    have eight : ((List.range 8).map fun index => (addr.segment index).toNat).length = 8 := by simp
    simp only
    generalize (List.range 8).map (fun index => (addr.segment index).toNat) = segments at bits small eight ⊢
    have nothing : ZeroRun segments (0, 0) := fun index _ below => absurd below (Nat.not_lt_zero index)
    have zeros := longestZeros_zeroRun segments 0 (0, 0) (0, 0) rfl nothing (fun positive => absurd rfl positive) nothing
    generalize longestZeros segments 0 (0, 0) (0, 0) = run at zeros ⊢
    obtain ⟨start, length⟩ := run
    simp only
    split
    · rename_i several
      have inside : start + length ≤ 8 := by
        have last := zeros (start + length - 1) (show start ≤ _ by omega) (show _ < start + length by omega)
        have bounded := (List.getElem?_eq_some_iff.mp last).1
        omega
      have split := zeroRun_split zeros
      have headLength : (segments.take start).length = start := by
        rw [List.length_take]
        omega
      have tailLength : (segments.drop (start + length)).length = 8 - (start + length) := by
        rw [List.length_drop, eight]
      have parts : ∀ group ∈ segments.take start ++ segments.drop (start + length), group < 2 ^ 16 := by
        intro group member
        rcases List.mem_append.mp member with early | late
        · exact small group (List.mem_of_mem_take early)
        · exact small group (List.mem_of_mem_drop late)
      have read := readIpv6Addr_gap (by omega) parts
      rw [headLength, tailLength, show 8 - start - (8 - (start + length)) = length by omega, split, bits, whole] at read
      rw [String.toList_append, String.toList_append, intercalate_groups, intercalate_groups, List.append_assoc]
      exact read
    · rw [intercalate_groups, readIpv6Addr_written segments eight small, bits, whole]

theorem readIpv4Addr_ipv6 (addr : Ipv6Addr) : readIpv4Addr addr.text.toList = none := by
  unfold Ipv6Addr.text
  split
  · rw [String.toList_append]
    exact readIpv4Addr_undigit (by decide) _
  · apply readIpv4Addr_dotless
    simp only
    split
    · rw [String.toList_append, String.toList_append, intercalate_groups, intercalate_groups, List.mem_append,
        List.mem_append, not_or, not_or]
      exact ⟨⟨writtenGroups_dotless 0 _, by decide⟩, writtenGroups_dotless 0 _⟩
    · rw [intercalate_groups]
      exact writtenGroups_dotless 0 _

/-- A written address is read back. -/
theorem parse_text (ip : IpAddr) : IpAddr.parse ip.text.toList = some ip := by
  cases ip with
  | v4 addr =>
    simp [IpAddr.parse, IpAddr.text, readIpv4Addr_whole]
  | v6 addr =>
    simp [IpAddr.parse, IpAddr.text, readIpv4Addr_ipv6, readIpv6Addr_text]

end Ipv6

end Net
