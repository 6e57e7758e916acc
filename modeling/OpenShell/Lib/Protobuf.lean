import OpenShell.Lib.Utf8

/-! The wire format of protocol buffers, as far as it is written: a message is a sequence of numbered fields,
and a field tells where it ends. -/

namespace Protobuf

open Text

/-! Codes that can be read off the front of a longer text. -/

def PrefixFree {α : Type} (encode : α → List UInt8) : Prop :=
  ∀ first second behind further, encode first ++ behind = encode second ++ further →
    first = second ∧ behind = further

theorem PrefixFree.flatMap_inj {α : Type} {encode : α → List UInt8} (free : PrefixFree encode)
    (filled : ∀ item, encode item ≠ []) {items others : List α}
    (same : items.flatMap encode = others.flatMap encode) : items = others := by
  induction items generalizing others with
  | nil =>
    cases others with
    | nil => rfl
    | cons other others =>
      rw [List.flatMap_nil, List.flatMap_cons] at same
      exact absurd (List.append_eq_nil_iff.mp same.symm).1 (filled other)
  | cons item items ih =>
    cases others with
    | nil =>
      rw [List.flatMap_nil, List.flatMap_cons] at same
      exact absurd (List.append_eq_nil_iff.mp same).1 (filled item)
    | cons other others =>
      rw [List.flatMap_cons, List.flatMap_cons] at same
      obtain ⟨rfl, later⟩ := free _ _ _ _ same
      rw [ih later]

/-! Numbers, seven bits a byte with the low bits first. -/

def varintFor : Nat → Nat → List UInt8
  | 0, _ => []
  | fuel + 1, value =>
    if value < 128 then [UInt8.ofNat value] else UInt8.ofNat (value % 128 + 128) :: varintFor fuel (value / 128)

def varint (value : Nat) : List UInt8 := varintFor (value + 1) value

theorem toNat_byte {value : Nat} (small : value < 256) : (UInt8.ofNat value).toNat = value := by
  rw [UInt8.toNat_ofNat', Nat.mod_eq_of_lt small]

theorem varintFor_cancel {fuel others value other : Nat} {behind further : List UInt8} (enough : value < fuel)
    (enoughToo : other < others) (same : varintFor fuel value ++ behind = varintFor others other ++ further) :
    value = other ∧ behind = further := by
  induction fuel generalizing others value other with
  | zero => omega
  | succ fuel ih =>
    cases others with
    | zero => omega
    | succ others =>
      rw [varintFor, varintFor] at same
      split at same <;> split at same <;>
        (simp only [List.cons_append, List.nil_append, List.cons.injEq] at same; obtain ⟨byte, later⟩ := same)
      all_goals
        have number := congrArg UInt8.toNat byte
        rw [toNat_byte (by omega), toNat_byte (by omega)] at number
      · exact ⟨number, later⟩
      · omega
      · omega
      · obtain ⟨quotient, rest⟩ := ih (by omega) (by omega) later
        exact ⟨by omega, rest⟩

theorem varint_prefixFree : PrefixFree varint := fun _ _ _ _ same =>
  varintFor_cancel (Nat.lt_succ_self _) (Nat.lt_succ_self _) same

theorem varint_ne_nil (value : Nat) : varint value ≠ [] := by
  rw [varint, varintFor]
  split <;> exact List.cons_ne_nil _ _

theorem varint_small {value : Nat} (small : value < 128) : varint value = [UInt8.ofNat value] := by
  rw [varint, varintFor, if_pos small]

/-! Fields. -/

inductive Payload where
  | number (value : Nat)
  | bytes (content : List UInt8)

def Payload.wireType : Payload → Nat
  | .number _ => 0
  | .bytes _ => 2

def Payload.encode : Payload → List UInt8
  | .number value => varint value
  | .bytes content => varint content.length ++ content

structure WireField where
  number : Nat
  payload : Payload

def WireField.tag (field : WireField) : Nat := 8 * field.number + field.payload.wireType

def WireField.encode (field : WireField) : List UInt8 := varint field.tag ++ field.payload.encode

theorem WireField.encode_ne_nil (field : WireField) : field.encode ≠ [] :=
  List.append_ne_nil_of_left_ne_nil (varint_ne_nil _) _

theorem WireField.encode_prefixFree : PrefixFree WireField.encode := by
  rintro ⟨number, payload⟩ ⟨other, content⟩ behind further same
  rw [WireField.encode, WireField.encode, List.append_assoc, List.append_assoc] at same
  obtain ⟨tag, later⟩ := varint_prefixFree _ _ _ _ same
  cases payload with
  | number value =>
    cases content with
    | number another =>
      obtain ⟨rfl, rest⟩ := varint_prefixFree _ _ _ _ later
      have number_eq : number = other := by
        simp only [WireField.tag, Payload.wireType] at tag
        omega
      exact ⟨by rw [number_eq], rest⟩
    | bytes _ =>
      simp only [WireField.tag, Payload.wireType] at tag
      omega
  | bytes held =>
    cases content with
    | number _ =>
      simp only [WireField.tag, Payload.wireType] at tag
      omega
    | bytes others =>
      rw [Payload.encode, Payload.encode, List.append_assoc, List.append_assoc] at later
      obtain ⟨length, whole⟩ := varint_prefixFree _ _ _ _ later
      obtain ⟨rfl, rest⟩ := List.append_inj whole length
      have number_eq : number = other := by
        simp only [WireField.tag, Payload.wireType] at tag
        omega
      exact ⟨by rw [number_eq], rest⟩

def encodeFields (fields : List WireField) : List UInt8 := fields.flatMap WireField.encode

theorem encodeFields_inj {fields others : List WireField} (same : encodeFields fields = encodeFields others) :
    fields = others := WireField.encode_prefixFree.flatMap_inj WireField.encode_ne_nil same

def WireField.lead (field : WireField) : Option UInt8 := field.encode.head?

theorem WireField.lead_of_tag {field : WireField} {tag : Nat} (is_tag : field.tag = tag) (small : tag < 128) :
    field.lead = some (UInt8.ofNat tag) := by
  rw [lead, encode, is_tag, varint_small small]
  rfl

/-- Fields end where a byte follows that no field of their kind starts with. -/
theorem encodeFields_cut {fields others : List WireField} {behind further : List UInt8} {starts : UInt8 → Prop}
    (leads : ∀ field ∈ fields, ∀ byte ∈ field.lead, starts byte)
    (leadsToo : ∀ field ∈ others, ∀ byte ∈ field.lead, starts byte)
    (apart : ∀ byte ∈ behind.head?, ¬ starts byte) (apartToo : ∀ byte ∈ further.head?, ¬ starts byte)
    (same : encodeFields fields ++ behind = encodeFields others ++ further) : fields = others ∧ behind = further := by
  have no_field {field : WireField} {rest bytes : List UInt8} (leads : ∀ byte ∈ field.lead, starts byte)
      (apart : ∀ byte ∈ bytes.head?, ¬ starts byte) (same : bytes = field.encode ++ rest) : False := by
    obtain ⟨byte, more, encoded⟩ := List.exists_cons_of_ne_nil field.encode_ne_nil
    refine apart byte ?_ (leads byte ?_)
    · rw [same, encoded]
      rfl
    · rw [WireField.lead, encoded]
      rfl
  induction fields generalizing others with
  | nil =>
    cases others with
    | nil => exact ⟨rfl, same⟩
    | cons other others =>
      rw [encodeFields, encodeFields, List.flatMap_nil, List.flatMap_cons, List.nil_append, List.append_assoc] at same
      exact (no_field (leadsToo other List.mem_cons_self) apart same).elim
  | cons field fields ih =>
    cases others with
    | nil =>
      rw [encodeFields, encodeFields, List.flatMap_nil, List.flatMap_cons, List.nil_append, List.append_assoc] at same
      exact (no_field (leads field List.mem_cons_self) apartToo same.symm).elim
    | cons other others =>
      rw [encodeFields, encodeFields, List.flatMap_cons, List.flatMap_cons, List.append_assoc, List.append_assoc] at same
      obtain ⟨rfl, later⟩ := WireField.encode_prefixFree _ _ _ _ same
      obtain ⟨rfl, rest⟩ := ih (fun each member => leads each (List.mem_cons_of_mem _ member))
        (fun each member => leadsToo each (List.mem_cons_of_mem _ member)) later
      exact ⟨rfl, rest⟩

/-! Fields with text between them that nothing marks off. -/

inductive Item where
  | field (field : WireField)
  | letter (c : Char)

def Item.encode : Item → List UInt8
  | .field held => held.encode
  | .letter c => String.utf8EncodeChar c

def encodeItems (items : List Item) : List UInt8 := items.flatMap Item.encode

/-- Up to a place the items are the same. There one list has a field and the other the character with the tag of that
field, and from there on they are spelled the same. -/
structure Clash (items others : List Item) (common rest further : List Item) (field : WireField) (c : Char) : Prop where
  items : items = common ++ .field field :: rest
  others : others = common ++ .letter c :: further
  tag : c.toNat = field.tag
  spelled : encodeItems (.field field :: rest) = encodeItems (.letter c :: further)

def Clashes (items others : List Item) : Prop :=
  ∃ common rest further field c, Clash items others common rest further field c

section Items

variable {items others : List Item} {behind further : List UInt8}

theorem Item.encode_ne_nil (item : Item) : item.encode ≠ [] := by
  cases item with
  | field field => exact field.encode_ne_nil
  | letter c =>
    obtain ⟨lead, more, encoded, _⟩ := encode_lead c
    rw [Item.encode, encoded]
    exact List.cons_ne_nil _ _

theorem utf8EncodeChar_prefixFree : PrefixFree String.utf8EncodeChar := by
  intro first second behind further same
  have read := decodeChar_encode first behind
  rw [same, decodeChar_encode] at read
  obtain rfl := Option.some.inj read
  exact ⟨rfl, List.append_cancel_left same⟩

/-- A field and a character that begin with the same byte: the character is the tag. -/
theorem tag_of_encode {field : WireField} {c : Char} (small : field.tag < 128)
    (same : field.encode ++ behind = String.utf8EncodeChar c ++ further) : c.toNat = field.tag := by
  rw [WireField.encode, varint_small small, List.singleton_append, List.cons_append] at same
  obtain ⟨lead, more, encoded, _⟩ := encode_lead c
  have member : lead ∈ String.utf8EncodeChar c := by
    rw [encoded]
    exact List.mem_cons_self
  have first : UInt8.ofNat field.tag = lead := by
    rw [encoded, List.cons_append, List.cons.injEq] at same
    exact same.1
  have number := toNat_byte (show field.tag < 256 by omega)
  by_cases ascii : c.toNat < 128
  · rw [encode_ascii ascii, List.mem_singleton] at member
    have code := toNat_byte (show c.toNat < 256 by omega)
    rw [← number, first, member, code]
  · have high := encode_wide (by omega) lead member
    rw [← first, UInt8.le_iff_toNat_le, number] at high
    have bound : (0x80 : UInt8).toNat = 128 := rfl
    omega

theorem Clashes.cons (clashes : Clashes items others) (item : Item) : Clashes (item :: items) (item :: others) := by
  obtain ⟨common, rest, further, field, c, clash⟩ := clashes
  refine ⟨item :: common, rest, further, field, c, ?_, ?_, clash.tag, clash.spelled⟩
  · rw [clash.items]
    rfl
  · rw [clash.others]
    rfl

theorem Clashes.encodeItems_eq (clashes : Clashes items others) : encodeItems items = encodeItems others := by
  obtain ⟨common, rest, further, field, c, clash⟩ := clashes
  have spelled := clash.spelled
  unfold encodeItems at spelled ⊢
  rw [clash.items, clash.others, List.flatMap_append, List.flatMap_append, spelled]

/-- Two lists are spelled the same if they are the same, or if a character of one clashes with a field of the other. -/
theorem encodeItems_eq_iff (small : ∀ field, .field field ∈ items ++ others → field.tag < 128) :
    encodeItems items = encodeItems others ↔ items = others ∨ Clashes items others ∨ Clashes others items := by
  constructor
  · intro same
    induction items generalizing others with
    | nil =>
      cases others with
      | nil => exact .inl rfl
      | cons other others =>
        rw [encodeItems, encodeItems, List.flatMap_nil, List.flatMap_cons] at same
        exact absurd (List.append_eq_nil_iff.mp same.symm).1 other.encode_ne_nil
    | cons item items ih =>
      cases others with
      | nil =>
        rw [encodeItems, encodeItems, List.flatMap_nil, List.flatMap_cons] at same
        exact absurd (List.append_eq_nil_iff.mp same).1 item.encode_ne_nil
      | cons other others =>
        have smallLater : ∀ field, .field field ∈ items ++ others → field.tag < 128 := by
          intro field member
          apply small
          rcases List.mem_append.mp member with inItems | inOthers
          · exact List.mem_append_left _ (List.mem_cons_of_mem _ inItems)
          · exact List.mem_append_right _ (List.mem_cons_of_mem _ inOthers)
        have later : encodeItems items = encodeItems others → item = other →
            item :: items = other :: others ∨ Clashes (item :: items) (other :: others) ∨
              Clashes (other :: others) (item :: items) := by
          rintro alike rfl
          rcases ih smallLater alike with rfl | clashes | clashes
          · exact .inl rfl
          · exact .inr (.inl (clashes.cons item))
          · exact .inr (.inr (clashes.cons item))
        have whole := same
        rw [encodeItems, encodeItems, List.flatMap_cons, List.flatMap_cons] at same
        cases item with
        | field field =>
          cases other with
          | field another =>
            obtain ⟨rfl, rest⟩ := WireField.encode_prefixFree _ _ _ _ same
            exact later rest rfl
          | letter c =>
            have tag := tag_of_encode (small field (List.mem_append_left _ List.mem_cons_self)) same
            exact .inr (.inl ⟨[], items, others, field, c, rfl, rfl, tag, whole⟩)
        | letter c =>
          cases other with
          | field field =>
            have tag := tag_of_encode (small field (List.mem_append_right _ List.mem_cons_self)) same.symm
            exact .inr (.inr ⟨[], others, items, field, c, rfl, rfl, tag, whole.symm⟩)
          | letter d =>
            obtain ⟨rfl, rest⟩ := utf8EncodeChar_prefixFree _ _ _ _ same
            exact later rest rfl
  · rintro (rfl | clashes | clashes)
    · rfl
    · exact clashes.encodeItems_eq
    · exact clashes.encodeItems_eq.symm

end Items

/-! Messages: for each number of a field, what is written under it. -/

abbrev Piece := Nat × List Payload

def Piece.fields (piece : Piece) : List WireField := piece.2.map (⟨piece.1, ·⟩)

def encodeMessage (pieces : List Piece) : List UInt8 := encodeFields (pieces.flatMap Piece.fields)

theorem Piece.fields_inj {number : Nat} {payloads others : List Payload}
    (same : Piece.fields (number, payloads) = Piece.fields (number, others)) : payloads = others :=
  List.map_injective_iff.mpr (fun _ _ field => (WireField.mk.inj field).2) same

theorem filter_fields (piece : Piece) (number : Nat) :
    piece.fields.filter (·.number = number) = if piece.1 = number then piece.fields else [] := by
  have numbered : ∀ field ∈ piece.fields, field.number = piece.1 := by
    intro field member
    obtain ⟨payload, _, rfl⟩ := List.mem_map.mp member
    rfl
  split
  · rename_i same
    exact List.filter_eq_self.mpr fun field member => decide_eq_true ((numbered field member).trans same)
  · rename_i other
    refine List.filter_eq_nil_iff.mpr fun field member found => other ?_
    rw [← numbered field member]
    exact of_decide_eq_true found

theorem filter_pieces {pieces : List Piece} {number : Nat} (absent : number ∉ pieces.map Prod.fst) :
    (pieces.flatMap Piece.fields).filter (·.number = number) = [] := by
  induction pieces with
  | nil => rfl
  | cons piece pieces ih =>
    rw [List.map_cons, List.mem_cons, not_or] at absent
    rw [List.flatMap_cons, List.filter_append, ih absent.2, filter_fields, if_neg (Ne.symm absent.1), List.nil_append]

theorem pieces_inj {pieces others : List Piece} (numbers : pieces.map Prod.fst = others.map Prod.fst)
    (distinct : (pieces.map Prod.fst).Nodup) (same : pieces.flatMap Piece.fields = others.flatMap Piece.fields) :
    pieces = others := by
  induction pieces generalizing others with
  | nil =>
    cases others with
    | nil => rfl
    | cons => cases numbers
  | cons piece pieces ih =>
    cases others with
    | nil => cases numbers
    | cons other others =>
      obtain ⟨number, payloads⟩ := piece
      obtain ⟨another, contents⟩ := other
      rw [List.map_cons, List.map_cons, List.cons.injEq] at numbers
      obtain ⟨rfl, later⟩ : number = another ∧ _ := numbers
      rw [List.map_cons, List.nodup_cons] at distinct
      rw [List.flatMap_cons, List.flatMap_cons] at same
      -- the fields of one number are those of one piece
      have here := congrArg (List.filter (·.number = number)) same
      rw [List.filter_append, List.filter_append, filter_pieces distinct.1, filter_pieces (later ▸ distinct.1),
        filter_fields, filter_fields, if_pos rfl, if_pos rfl, List.append_nil, List.append_nil] at here
      rw [here] at same
      rw [Piece.fields_inj here, ih later distinct.2 (List.append_cancel_left same)]

theorem encodeMessage_inj {pieces others : List Piece} (numbers : List Nat) (first : pieces.map Prod.fst = numbers)
    (second : others.map Prod.fst = numbers) (distinct : numbers.Nodup)
    (same : encodeMessage pieces = encodeMessage others) : pieces = others :=
  pieces_inj (first.trans second.symm) (first ▸ distinct) (encodeFields_inj same)

/-! What is written under a number. Default values are left out. -/

def text (value : String) : List Payload := if value = "" then [] else [.bytes (utf8Encode value.toList)]

def texts (values : List String) : List Payload := values.map fun value => .bytes (utf8Encode value.toList)

def flag (value : Bool) : List Payload := if value then [.number 1] else []

def uint32 (value : UInt32) : List Payload := if value = 0 then [] else [.number value.toNat]

def packed (values : List UInt32) : List Payload :=
  if values = [] then [] else [.bytes (values.flatMap fun value => varint value.toNat)]

def messages {α : Type} (encode : α → List UInt8) (values : List α) : List Payload :=
  values.map fun value => .bytes (encode value)

theorem lead_messages {α : Type} {encode : α → List UInt8} {values : List α} {number : Nat}
    (small : 8 * number + 2 < 128) : ∀ field ∈ Piece.fields (number, messages encode values),
      ∀ byte ∈ field.lead, byte = UInt8.ofNat (8 * number + 2) := by
  intro field member byte lead
  obtain ⟨payload, held, rfl⟩ := List.mem_map.mp member
  obtain ⟨value, _, rfl⟩ := List.mem_map.mp held
  rw [WireField.lead_of_tag (rfl : WireField.tag _ = 8 * number + 2) small] at lead
  exact (Option.some.inj lead).symm

/-- The entry of a map, which is a message of its own. -/
def mapEntry {β : Type} [DecidableEq β] (default : β) (encode : β → List UInt8) (entry : Σ _ : String, β) :
    List UInt8 :=
  encodeMessage [(1, text entry.1), (2, if entry.2 = default then [] else [.bytes (encode entry.2)])]

theorem utf8Encode_toList_inj {value other : String} (same : utf8Encode value.toList = utf8Encode other.toList) :
    value = other := by
  have decoded := congrArg utf8Decode same
  rw [utf8Decode_encode, utf8Decode_encode, Option.some.injEq] at decoded
  exact String.toList_inj.mp decoded

@[simp] theorem text_inj {value other : String} : text value = text other ↔ value = other := by
  refine ⟨fun same => ?_, fun same => by rw [same]⟩
  unfold text at same
  split at same <;> split at same
  · rename_i empty emptyToo
    rw [empty, emptyToo]
  · cases same
  · cases same
  · exact utf8Encode_toList_inj (Payload.bytes.inj (List.singleton_inj.mp same))

@[simp] theorem messages_inj {α : Type} {encode : α → List UInt8} (injective : Function.Injective encode)
    {values others : List α} : messages encode values = messages encode others ↔ values = others := by
  refine ⟨fun same => ?_, fun same => by rw [same]⟩
  exact List.map_injective_iff.mpr (fun _ _ payload => injective (Payload.bytes.inj payload)) same

@[simp] theorem texts_inj {values others : List String} : texts values = texts others ↔ values = others :=
  messages_inj fun _ _ => utf8Encode_toList_inj

@[simp] theorem flag_inj {value other : Bool} : flag value = flag other ↔ value = other := by
  cases value <;> cases other <;> simp [flag]

@[simp] theorem uint32_inj {value other : UInt32} : uint32 value = uint32 other ↔ value = other := by
  refine ⟨fun same => ?_, fun same => by rw [same]⟩
  unfold uint32 at same
  split at same <;> split at same
  · rename_i zero zeroToo
    rw [zero, zeroToo]
  · cases same
  · cases same
  · exact UInt32.toNat_inj.mp (Payload.number.inj (List.singleton_inj.mp same))

@[simp] theorem packed_inj {values others : List UInt32} : packed values = packed others ↔ values = others := by
  refine ⟨fun same => ?_, fun same => by rw [same]⟩
  unfold packed at same
  split at same <;> split at same
  · rename_i empty emptyToo
    rw [empty, emptyToo]
  · cases same
  · cases same
  · have free : PrefixFree fun value : UInt32 => varint value.toNat := by
      intro first second behind further front
      obtain ⟨number, rest⟩ := varint_prefixFree _ _ _ _ front
      exact ⟨UInt32.toNat_inj.mp number, rest⟩
    exact free.flatMap_inj (fun value => varint_ne_nil _) (Payload.bytes.inj (List.singleton_inj.mp same))

theorem mapEntry_injective {β : Type} [DecidableEq β] {default : β} {encode : β → List UInt8}
    (injective : Function.Injective encode) : Function.Injective (mapEntry default encode) := by
  rintro ⟨key, value⟩ ⟨other, content⟩ same
  have pieces := encodeMessage_inj [1, 2] rfl rfl (by decide) same
  simp only [List.cons.injEq, Prod.mk.injEq, text_inj, true_and, and_true] at pieces
  obtain ⟨rfl, written⟩ := pieces
  split at written <;> split at written
  · rename_i isDefault isDefaultToo
    rw [isDefault, isDefaultToo]
  · cases written
  · cases written
  · rw [injective (Payload.bytes.inj (List.singleton_inj.mp written))]

/-! How long a message is depends on how long the payloads are. -/

def Payload.shape (payload : Payload) : Nat × Nat := (payload.wireType, payload.encode.length)

def Piece.Alike (piece other : Piece) : Prop :=
  piece.1 = other.1 ∧ (piece.2.map Payload.shape).Perm (other.2.map Payload.shape)

theorem Piece.Alike.of_eq {number : Nat} {payloads others : List Payload} (same : payloads = others) :
    Piece.Alike (number, payloads) (number, others) := ⟨rfl, by rw [same]⟩

theorem length_fields (piece : Piece) : (encodeFields piece.fields).length =
    ((piece.2.map Payload.shape).map fun shape => (varint (8 * piece.1 + shape.1)).length + shape.2).sum := by
  rw [encodeFields, List.length_flatMap, Piece.fields, List.map_map, List.map_map]
  congr 1
  apply List.map_congr_left
  intro payload _
  simp only [Function.comp_apply, WireField.encode, WireField.tag, Payload.shape, List.length_append]

theorem Piece.Alike.length {piece other : Piece} (alike : piece.Alike other) :
    (encodeFields piece.fields).length = (encodeFields other.fields).length := by
  rw [length_fields, length_fields, alike.1]
  exact (alike.2.map _).sum_nat

theorem length_encodeMessage {pieces others : List Piece} (alike : List.Forall₂ Piece.Alike pieces others) :
    (encodeMessage pieces).length = (encodeMessage others).length := by
  induction alike with
  | nil => rfl
  | cons head later ih =>
    have here := head.length
    simp only [encodeMessage, encodeFields, List.flatMap_cons, List.flatMap_append, List.length_append] at here ih ⊢
    rw [here, ih]

theorem shapes_messages {α β : Type} {encode : α → List UInt8} {meaning : α → β} {values others : List α}
    (alike : values.map meaning = others.map meaning)
    (lengths : ∀ value other, meaning value = meaning other → (encode value).length = (encode other).length) :
    (messages encode values).map Payload.shape = (messages encode others).map Payload.shape := by
  induction values generalizing others with
  | nil =>
    cases others with
    | nil => rfl
    | cons => cases alike
  | cons value values ih =>
    cases others with
    | nil => cases alike
    | cons other others =>
      rw [List.map_cons, List.map_cons, List.cons.injEq] at alike
      have later := ih alike.2
      simp only [messages, List.map_cons, List.cons.injEq] at later ⊢
      refine ⟨?_, later⟩
      simp only [Payload.shape, Payload.wireType, Payload.encode, List.length_append, lengths _ _ alike.1]

end Protobuf
