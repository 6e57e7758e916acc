import OpenShell.Lib.Text

/-! Internet addresses as the Rust standard library has them: their classes, and how they are read and
written. -/

namespace Net

open Text

structure Ipv4Addr where
  bits : BitVec 32
deriving DecidableEq

structure Ipv6Addr where
  bits : BitVec 128
deriving DecidableEq

inductive IpAddr where
  | v4 (addr : Ipv4Addr)
  | v6 (addr : Ipv6Addr)
deriving DecidableEq

structure SocketAddr where
  ip : IpAddr
  port : UInt16
deriving DecidableEq

/-! Classes of addresses. -/

namespace Ipv4Addr

def octet (addr : Ipv4Addr) (index : Nat) : BitVec 8 := addr.bits.extractLsb' (24 - 8 * index) 8

def isUnspecified (addr : Ipv4Addr) : Bool := addr.bits = 0

def isLoopback (addr : Ipv4Addr) : Bool := addr.octet 0 = 127

def isPrivate (addr : Ipv4Addr) : Bool :=
  addr.octet 0 = 10 || (addr.octet 0 = 172 && 16 ≤ (addr.octet 1).toNat && (addr.octet 1).toNat ≤ 31) ||
    (addr.octet 0 = 192 && addr.octet 1 = 168)

def isLinkLocal (addr : Ipv4Addr) : Bool := addr.octet 0 = 169 && addr.octet 1 = 254

end Ipv4Addr

namespace Ipv6Addr

def segment (addr : Ipv6Addr) (index : Nat) : BitVec 16 := addr.bits.extractLsb' (112 - 16 * index) 16

def isUnspecified (addr : Ipv6Addr) : Bool := addr.bits = 0

def isLoopback (addr : Ipv6Addr) : Bool := addr.bits = 1

def toIpv4Mapped (addr : Ipv6Addr) : Option Ipv4Addr :=
  if addr.bits.extractLsb' 32 96 = 0xFFFF then some ⟨addr.bits.extractLsb' 0 32⟩ else none

end Ipv6Addr

/-! Reading an address. Each reader gives the value and the text behind it. -/

def readNumber (radix maxDigits bound : Nat) (allowZeroPrefix : Bool) (text : List Char) :
    Option (Nat × List Char) :=
  let digits := text.takeWhile fun c => (toDigit radix c).isSome
  let value := digits.foldl (fun read c => read * radix + (toDigit radix c).getD 0) 0
  if maxDigits < digits.length then none
  else if digits.isEmpty then none
  else if !allowZeroPrefix && text.head? = some '0' && 1 < digits.length then none
  else if value < bound then some (value, text.drop digits.length)
  else none

def readGivenChar (wanted : Char) : List Char → Option (List Char)
  | [] => none
  | c :: text => if c = wanted then some text else none

def readSeparator (separator : Char) (index : Nat) (text : List Char) : Option (List Char) :=
  if 0 < index then readGivenChar separator text else some text

def readOctets : Nat → Nat → List Char → Option (List Nat × List Char)
  | 0, _, text => some ([], text)
  | count + 1, index, text => do
    let text ← readSeparator '.' index text
    let (octet, text) ← readNumber 10 3 256 false text
    let (octets, text) ← readOctets count (index + 1) text
    pure (octet :: octets, text)

def ofDigits (base : Nat) (digits : List Nat) : Nat := digits.foldl (fun read digit => read * base + digit) 0

def readIpv4Addr (text : List Char) : Option (Ipv4Addr × List Char) := do
  let (octets, text) ← readOctets 4 0 text
  pure (⟨BitVec.ofNat 32 (ofDigits 256 octets)⟩, text)

/-- Up to `count` groups of four digits. In place of the last two an address of version 4 may stand. -/
def readGroups : Nat → Nat → List Char → List Nat × Bool × List Char
  | 0, _, text => ([], false, text)
  | count + 1, index, text =>
    let embedded := do
      if count = 0 then none
      else
        let text ← readSeparator ':' index text
        readIpv4Addr text
    match embedded with
    | some (addr, text) => ([addr.bits.toNat / 2 ^ 16, addr.bits.toNat % 2 ^ 16], true, text)
    | none =>
      match (readSeparator ':' index text).bind (readNumber 16 4 (2 ^ 16) true) with
      | none => ([], false, text)
      | some (group, text) =>
        let (groups, embedded, text) := readGroups count (index + 1) text
        (group :: groups, embedded, text)

def readIpv6Addr (text : List Char) : Option (Ipv6Addr × List Char) := do
  let (head, embedded, text) := readGroups 8 0 text
  if head.length = 8 then pure (⟨BitVec.ofNat 128 (ofDigits (2 ^ 16) head)⟩, text)
  else if embedded then none
  else
    let text ← readGivenChar ':' text
    let text ← readGivenChar ':' text
    let (tail, _, text) := readGroups (8 - (head.length + 1)) 0 text
    let zeros := List.replicate (8 - head.length - tail.length) 0
    pure (⟨BitVec.ofNat 128 (ofDigits (2 ^ 16) (head ++ zeros ++ tail))⟩, text)

def IpAddr.parse (text : List Char) : Option IpAddr :=
  let read := (readIpv4Addr text).map (fun (addr, text) => (IpAddr.v4 addr, text)) <|>
    (readIpv6Addr text).map fun (addr, text) => (IpAddr.v6 addr, text)
  match read with
  | some (addr, []) => some addr
  | _ => none

/-! Writing an address. -/

def Ipv4Addr.text (addr : Ipv4Addr) : String :=
  ".".intercalate ((List.range 4).map fun index => toString (addr.octet index).toNat)

def hexText (value : Nat) : String := String.ofList (Nat.toDigits 16 value)

/-- The start and the length of the first longest run of zeros. -/
def longestZeros : List Nat → Nat → Nat × Nat → Nat × Nat → Nat × Nat
  | [], _, _, longest => longest
  | segment :: segments, index, (start, length), longest =>
    if segment = 0 then
      let run := (if length = 0 then index else start, length + 1)
      longestZeros segments (index + 1) run (if longest.2 < run.2 then run else longest)
    else longestZeros segments (index + 1) (0, 0) longest

def Ipv6Addr.text (addr : Ipv6Addr) : String :=
  match addr.toIpv4Mapped with
  | some mapped => "::ffff:" ++ mapped.text
  | none =>
    let segments := (List.range 8).map fun index => (addr.segment index).toNat
    let written := fun part : List Nat => ":".intercalate (part.map hexText)
    let (start, length) := longestZeros segments 0 (0, 0) (0, 0)
    if 1 < length then written (segments.take start) ++ "::" ++ written (segments.drop (start + length))
    else written segments

def IpAddr.text : IpAddr → String
  | .v4 addr => addr.text
  | .v6 addr => addr.text

/-! Blocks of addresses. -/

/-- The addresses that share the first `length` bits with `base`. -/
def InBlock {width : Nat} (base : BitVec width) (length : Nat) (bits : BitVec width) : Prop :=
  bits.toNat / 2 ^ (width - length) = base.toNat / 2 ^ (width - length)

instance {width : Nat} (base : BitVec width) (length : Nat) (bits : BitVec width) :
    Decidable (InBlock base length bits) := inferInstanceAs (Decidable (_ = _))

section Blocks

variable {addr : Ipv4Addr}

theorem octet_zero (addr : Ipv4Addr) : (addr.octet 0).toNat = addr.bits.toNat / 2 ^ 24 := by
  have bound := addr.bits.isLt
  simp only [Ipv4Addr.octet, BitVec.extractLsb'_toNat, Nat.shiftRight_eq_div_pow]
  omega

theorem octet_one (addr : Ipv4Addr) : (addr.octet 1).toNat = addr.bits.toNat / 2 ^ 16 % 2 ^ 8 := by
  simp only [Ipv4Addr.octet, BitVec.extractLsb'_toNat, Nat.shiftRight_eq_div_pow]

theorem octet_eq_iff {index : Nat} {value : BitVec 8} :
    addr.octet index = value ↔ (addr.octet index).toNat = value.toNat := BitVec.toNat_inj.symm

theorem isLoopback_iff : addr.isLoopback = true ↔ InBlock 0x7F000000#32 8 addr.bits := by
  have first := octet_zero addr
  simp only [Ipv4Addr.isLoopback, InBlock, decide_eq_true_eq, octet_eq_iff, BitVec.ofNat_eq_ofNat,
    BitVec.toNat_ofNat]
  omega

theorem isLinkLocal_iff : addr.isLinkLocal = true ↔ InBlock 0xA9FE0000#32 16 addr.bits := by
  have first := octet_zero addr
  have second := octet_one addr
  simp only [Ipv4Addr.isLinkLocal, InBlock, Bool.and_eq_true, decide_eq_true_eq, octet_eq_iff,
    BitVec.ofNat_eq_ofNat, BitVec.toNat_ofNat]
  omega

theorem isPrivate_iff : addr.isPrivate = true ↔ InBlock 0x0A000000#32 8 addr.bits ∨
    InBlock 0xAC100000#32 12 addr.bits ∨ InBlock 0xC0A80000#32 16 addr.bits := by
  have first := octet_zero addr
  have second := octet_one addr
  simp only [Ipv4Addr.isPrivate, InBlock, Bool.and_eq_true, Bool.or_eq_true, decide_eq_true_eq, octet_eq_iff,
    BitVec.ofNat_eq_ofNat, BitVec.toNat_ofNat]
  omega

theorem segment_zero (addr : Ipv6Addr) : (addr.segment 0).toNat = addr.bits.toNat / 2 ^ 112 := by
  have bound := addr.bits.isLt
  simp only [Ipv6Addr.segment, BitVec.extractLsb'_toNat, Nat.shiftRight_eq_div_pow]
  omega

/-- A mask of the upper bits drops the others. -/
theorem and_upper (low : Nat) {value : Nat} (kept : low ≤ 16) (bound : value < 2 ^ 16) :
    value &&& (2 ^ 16 - 2 ^ low) = value / 2 ^ low * 2 ^ low := by
  have mask : 2 ^ 16 - 2 ^ low = (2 ^ (16 - low) - 1) * 2 ^ low := by
    rw [Nat.sub_mul, ← Nat.pow_add, Nat.one_mul, Nat.sub_add_cancel kept]
  have upper : (value &&& (2 ^ 16 - 2 ^ low)) / 2 ^ low = value / 2 ^ low := by
    rw [Nat.and_div_two_pow, mask, Nat.mul_div_cancel _ (Nat.two_pow_pos low), Nat.and_two_pow_sub_one_eq_mod,
      Nat.mod_eq_of_lt]
    rw [Nat.div_lt_iff_lt_mul (Nat.two_pow_pos low), ← Nat.pow_add, Nat.sub_add_cancel kept]
    exact bound
  have lower : (value &&& (2 ^ 16 - 2 ^ low)) % 2 ^ low = 0 := by
    rw [Nat.and_mod_two_pow, mask, Nat.mul_mod_left, Nat.and_zero]
  have whole := Nat.div_add_mod (value &&& (2 ^ 16 - 2 ^ low)) (2 ^ low)
  rw [upper, lower, Nat.add_zero, Nat.mul_comm] at whole
  exact whole.symm

variable {addr : Ipv6Addr}

theorem segment_linkLocal_iff : addr.segment 0 &&& 0xFFC0 = 0xFE80 ↔
    InBlock 0xFE800000000000000000000000000000#128 10 addr.bits := by
  have first := segment_zero addr
  have masked := and_upper 6 (by omega) (addr.segment 0).isLt
  simp only [← BitVec.toNat_inj, BitVec.toNat_and, InBlock, BitVec.ofNat_eq_ofNat, BitVec.toNat_ofNat]
  rw [show (0xFFC0 % 2 ^ 16 : Nat) = 2 ^ 16 - 2 ^ 6 by decide, masked]
  omega

theorem segment_uniqueLocal_iff : addr.segment 0 &&& 0xFE00 = 0xFC00 ↔
    InBlock 0xFC000000000000000000000000000000#128 7 addr.bits := by
  have first := segment_zero addr
  have masked := and_upper 9 (by omega) (addr.segment 0).isLt
  simp only [← BitVec.toNat_inj, BitVec.toNat_and, InBlock, BitVec.ofNat_eq_ofNat, BitVec.toNat_ofNat]
  rw [show (0xFE00 % 2 ^ 16 : Nat) = 2 ^ 16 - 2 ^ 9 by decide, masked]
  omega

theorem toIpv4Mapped_eq_some {mapped : Ipv4Addr} : addr.toIpv4Mapped = some mapped ↔
    InBlock 0xFFFF00000000#128 96 addr.bits ∧ mapped.bits = addr.bits.extractLsb' 0 32 := by
  have bound := addr.bits.isLt
  have upper : addr.bits.extractLsb' 32 96 = 0xFFFF ↔ InBlock 0xFFFF00000000#128 96 addr.bits := by
    simp only [← BitVec.toNat_inj, BitVec.extractLsb'_toNat, Nat.shiftRight_eq_div_pow, InBlock,
      BitVec.ofNat_eq_ofNat, BitVec.toNat_ofNat]
    omega
  rw [← upper]
  unfold Ipv6Addr.toIpv4Mapped
  split
  · rename_i inside
    rw [and_iff_right inside, Option.some.injEq]
    constructor
    · intro same
      rw [← same]
    · intro same
      obtain ⟨bits⟩ := mapped
      exact congrArg Ipv4Addr.mk same.symm
  · rename_i outside
    exact iff_of_false (by simp) fun both => outside both.1

end Blocks

end Net
