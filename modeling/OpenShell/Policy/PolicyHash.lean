import OpenShell.Policy.Proto

namespace OpenShell.Policy.Proto

open Text Protobuf

/-! The hash of a policy, and the update that it decides. `digest` is the SHA-256 digest in hexadecimal. -/

section Hash

variable (digest : List UInt8 → String)

def writtenEntry (entry : Σ _ : String, NetworkPolicyRule) : List UInt8 :=
  utf8Encode entry.1.toList ++ entry.2.encodeToVec

def SandboxPolicy.sections (policy : SandboxPolicy) : List UInt8 :=
  policy.filesystem.elim [] FilesystemPolicy.encodeToVec ++
  (policy.landlock.elim [] LandlockPolicy.encodeToVec ++ policy.process.elim [] ProcessPolicy.encodeToVec)

def SandboxPolicy.entries (policy : SandboxPolicy) : List UInt8 :=
  (SortedMap.sortEntries policy.networkPolicies).flatMap writtenEntry

def SandboxPolicy.hashInput (policy : SandboxPolicy) : List UInt8 :=
  toLeBytes policy.version ++ (policy.sections ++ policy.entries)

def deterministicPolicyHash (policy : SandboxPolicy) : String := digest policy.hashInput

structure PolicyRevision where
  version : Nat
  policyPayload : List UInt8
  policyHash : String

def revisionOf (version : Nat) (policy : SandboxPolicy) : PolicyRevision :=
  ⟨version, policy.encodeToVec, deterministicPolicyHash digest policy⟩

/-- What an update writes behind the latest revision: nothing where the hash is the one recorded there. -/
def nextRevision (latest : Option PolicyRevision) (policy : SandboxPolicy) : Option PolicyRevision :=
  if latest.any (·.policyHash = deterministicPolicyHash digest policy) then none
  else some (revisionOf digest (latest.elim 1 (·.version + 1)) policy)

structure Identifies (recorded submitted : SandboxPolicy) : Prop where
  hash : deterministicPolicyHash digest recorded = deterministicPolicyHash digest submitted ↔
    recorded.value.Same submitted.value
  shortcut : ∀ version, nextRevision digest (some (revisionOf digest version recorded)) submitted = none ↔
    recorded.value.Same submitted.value

end Hash

/-! When the bytes that are hashed tell two policies apart. -/

/-- The end of the key and of the rule can be seen from the bytes. -/
structure EntryDelimited (entry : Σ _ : String, NetworkPolicyRule) : Prop where
  printable : ∀ c ∈ entry.1.toList, 32 ≤ c.toNat
  named : entry.2.name ≠ ""

structure SectionsFilled (policy : SandboxPolicy) : Prop where
  filesystem : policy.filesystem.isSome
  landlock : ∃ compatibility, compatibility ≠ "" ∧ policy.landlock = some ⟨compatibility⟩
  process : ∃ user group, user ≠ "" ∧ group ≠ "" ∧ policy.process = some ⟨user, group⟩

structure SameSections (first second : SandboxPolicy) : Prop where
  filesystem : first.filesystem = second.filesystem
  landlock : first.landlock = second.landlock
  process : first.process = second.process

structure Delimited (first second : SandboxPolicy) : Prop where
  sections : SameSections first second ∨ (SectionsFilled first ∧ SectionsFilled second)
  entries : ∀ entry ∈ first.networkPolicies.entries ++ second.networkPolicies.entries, EntryDelimited entry

def filesystemFields (policy : FilesystemPolicy) : List WireField :=
  Piece.fields (1, flag policy.includeWorkdir) ++ Piece.fields (2, texts policy.readOnly) ++
  Piece.fields (3, texts policy.readWrite)

def landlockFields (policy : LandlockPolicy) : List WireField := Piece.fields (1, text policy.compatibility)

def processFields (policy : ProcessPolicy) : List WireField :=
  Piece.fields (1, text policy.runAsUser) ++ Piece.fields (2, text policy.runAsGroup)

def NetworkPolicyRule.fields (rule : NetworkPolicyRule) : List WireField := rule.pieces.flatMap Piece.fields

/-- What a policy consists of besides its version: the fields of its sections, and rule by rule, in the order of the
keys, the characters of the key and the fields of the rule. -/
def SandboxPolicy.items (policy : SandboxPolicy) : List Item :=
  (policy.filesystem.elim [] filesystemFields ++ (policy.landlock.elim [] landlockFields ++
    policy.process.elim [] processFields)).map .field ++
  (SortedMap.sortEntries policy.networkPolicies).flatMap fun entry =>
    entry.1.toList.map .letter ++ entry.2.fields.map .field

/-- The policies consist of different items, and it is not that a character of a key stands where the other policy has
the field with that character for its tag, with the same spelling from there on. -/
structure Distinguished (first second : SandboxPolicy) : Prop where
  items : first.items ≠ second.items
  unspelled : ¬ Clashes first.items second.items
  unspelledToo : ¬ Clashes second.items first.items

structure ToldApart (recorded submitted : SandboxPolicy) : Prop where
  ordered : recorded.value.Same submitted.value →
    ∀ name, recorded.networkPolicies.lookup name = submitted.networkPolicies.lookup name
  apart : ¬ recorded.value.Same submitted.value →
    recorded.version ≠ submitted.version ∨ Delimited recorded submitted ∨ Distinguished recorded submitted

theorem toLeBytes_injective : Function.Injective toLeBytes := by
  intro first second same
  simp only [toLeBytes, List.cons.injEq, and_true] at same
  obtain ⟨low, second_byte, third, high⟩ := same
  have bytes := And.intro (congrArg UInt8.toNat low) (And.intro (congrArg UInt8.toNat second_byte)
    (And.intro (congrArg UInt8.toNat third) (congrArg UInt8.toNat high)))
  simp [Nat.shiftRight_eq_div_pow] at bytes
  have bound := first.toNat_lt
  have boundToo := second.toNat_lt
  apply UInt32.toNat_inj.mp
  omega

/-! The bytes that are hashed for a policy do not depend on whether its maps are seen with an order. -/

section Wire

variable {Blob : Type} {policy : SandboxPolicy}

def entryValue : (Σ _ : String, NetworkPolicyRule) → Σ _ : String, Policy.NetworkPolicyRule :=
  .map id fun _ => NetworkPolicyRule.value

theorem sortEntries_value (policy : SandboxPolicy) :
    SortedMap.sortEntries policy.value.networkPolicies = (SortedMap.sortEntries policy.networkPolicies).map entryValue :=
  congrArg (fun sorted => sorted.map.entries)
    (SortedMap.ofMap_mapValues NetworkPolicyRule.value policy.networkPolicies)

theorem hashInput_value (wire : Wire Blob)
    (filesystem : ∀ held, wire.bytes (wire.encodeFilesystem held) = held.encodeToVec)
    (landlock : ∀ held, wire.bytes (wire.encodeLandlock held) = held.encodeToVec)
    (process : ∀ held, wire.bytes (wire.encodeProcess held) = held.encodeToVec)
    (rules : ∀ entry ∈ policy.networkPolicies.entries, wire.bytes (wire.encodeRule entry.2.value) = entry.2.encodeToVec) :
    Policy.hashInput wire policy.value = policy.hashInput := by
  have entries : (SortedMap.sortEntries policy.value.networkPolicies).flatMap
      (fun entry => entry.1.toUTF8.toList ++ wire.bytes (wire.encodeRule entry.2)) = policy.entries := by
    rw [sortEntries_value, List.flatMap_map, SandboxPolicy.entries]
    apply List.flatMap_congr
    intro entry member
    rw [writtenEntry, ← toList_toUTF8, ← rules entry ((SortedMap.sortEntries_perm _).mem_iff.mp member)]
    rfl
  unfold Policy.hashInput
  simp only [filesystem, landlock, process]
  rw [SandboxPolicy.hashInput, ← entries, SandboxPolicy.sections]
  simp only [List.append_assoc]
  rfl

end Wire

/-! Equal policies. -/

section Equal

variable {first second : SandboxPolicy}

theorem sortEntries_of_same (same : first.value.Same second.value) :
    (SortedMap.sortEntries first.networkPolicies).map entryValue =
      (SortedMap.sortEntries second.networkPolicies).map entryValue := by
  rw [← sortEntries_value, ← sortEntries_value]
  exact congrArg (fun sorted => sorted.map.entries) (SortedMap.ofMap_eq_of_perm same.networkPolicies)

theorem writtenEntries_inj {entries others : List (Σ _ : String, NetworkPolicyRule)}
    (alike : entries.map entryValue = others.map entryValue)
    (same : entries.flatMap writtenEntry = others.flatMap writtenEntry) : entries = others := by
  induction entries generalizing others with
  | nil =>
    cases others with
    | nil => rfl
    | cons => cases alike
  | cons entry entries ih =>
    cases others with
    | nil => cases alike
    | cons other others =>
      obtain ⟨key, rule⟩ := entry
      obtain ⟨another, content⟩ := other
      rw [List.map_cons, List.map_cons, List.cons.injEq] at alike
      obtain ⟨here, later⟩ := alike
      obtain ⟨rfl, values⟩ : key = another ∧ rule.value = content.value := by
        simpa [entryValue, Sigma.map] using here
      simp only [List.flatMap_cons, writtenEntry, List.append_assoc, List.append_cancel_left_eq] at same
      -- equal rules are equally long, whatever the order of their maps
      obtain ⟨written, rest⟩ := List.append_inj same (NetworkPolicyRule.length_of_value values)
      rw [NetworkPolicyRule.encodeToVec_injective written, ih later rest]

theorem SameSections.written (same : SameSections first second) : first.sections = second.sections := by
  rw [SandboxPolicy.sections, SandboxPolicy.sections, same.filesystem, same.landlock, same.process]

theorem hashInput_iff_of_same (same : first.value.Same second.value) : first.hashInput = second.hashInput ↔
    ∀ name, first.networkPolicies.lookup name = second.networkPolicies.lookup name := by
  have version : first.version = second.version := same.version
  have sections : SameSections first second := ⟨same.filesystem, same.landlock, same.process⟩
  rw [SandboxPolicy.hashInput, SandboxPolicy.hashInput, version, sections.written,
    List.append_cancel_left_eq, List.append_cancel_left_eq, ← Maps.perm_iff_lookup]
  constructor
  · intro written
    have sorted := writtenEntries_inj (sortEntries_of_same same) written
    have perm := SortedMap.sortEntries_perm first.networkPolicies
    rw [sorted] at perm
    exact perm.symm.trans (SortedMap.sortEntries_perm second.networkPolicies)
  · intro perm
    have maps := congrArg (fun sorted => sorted.map.entries) (SortedMap.ofMap_eq_of_perm perm)
    exact congrArg (List.flatMap writtenEntry) maps

end Equal

/-! Policies whose parts have a visible end. -/

section Parts

variable {first second : SandboxPolicy}

theorem text_filled {value : String} (filled : value ≠ "") : text value = [.bytes (utf8Encode value.toList)] :=
  if_neg filled

/-- A field of number one that holds bytes starts with a line feed. -/
theorem encode_first (content : List UInt8) :
    WireField.encode ⟨1, .bytes content⟩ = 0x0A :: (varint content.length ++ content) := by
  have tag : WireField.tag ⟨1, .bytes content⟩ = 10 := rfl
  rw [WireField.encode, tag, varint_small (by decide)]
  rfl

theorem printable_bytes {key : List Char} (printable : ∀ c ∈ key, 32 ≤ c.toNat) :
    ∀ byte ∈ utf8Encode key, 32 ≤ byte := by
  intro byte member
  obtain ⟨c, held, written⟩ := List.mem_flatMap.mp member
  by_cases ascii : c.toNat < 128
  · rw [encode_ascii ascii, List.mem_singleton] at written
    rw [written, UInt8.le_iff_toNat_le, UInt8.toNat_ofNat', Nat.mod_eq_of_lt (by omega)]
    exact printable c held
  · have wide := encode_wide (by omega) byte written
    have low : (32 : UInt8) ≤ 0x80 := by decide
    exact UInt8.le_trans low wide

/-- The fields of a rule behind its name. -/
def NetworkPolicyRule.furtherFields (rule : NetworkPolicyRule) : List WireField :=
  Piece.fields (2, messages NetworkEndpoint.encodeToVec rule.endpoints) ++
  Piece.fields (3, messages NetworkBinary.encodeToVec rule.binaries)

theorem NetworkPolicyRule.encodeToVec_named {rule : NetworkPolicyRule} (named : rule.name ≠ "") :
    rule.encodeToVec = WireField.encode ⟨1, .bytes (utf8Encode rule.name.toList)⟩ ++ encodeFields rule.furtherFields := by
  rw [encodeToVec, pieces, text_filled named, encodeMessage, encodeFields, encodeFields, ← List.flatMap_cons]
  congr 1
  simp [Piece.fields, furtherFields]

theorem lead_furtherFields (rule : NetworkPolicyRule) :
    ∀ field ∈ rule.furtherFields, ∀ byte ∈ field.lead, byte = 0x12 ∨ byte = 0x1A := by
  intro field member byte lead
  rcases List.mem_append.mp member with endpoint | binary
  · exact Or.inl (lead_messages (by decide) field endpoint byte lead)
  · exact Or.inr (lead_messages (by decide) field binary byte lead)

theorem EntryDelimited.written {entry : Σ _ : String, NetworkPolicyRule} (delimited : EntryDelimited entry) :
    writtenEntry entry = utf8Encode entry.1.toList ++
      (WireField.encode ⟨1, .bytes (utf8Encode entry.2.name.toList)⟩ ++ encodeFields entry.2.furtherFields) := by
  rw [writtenEntry, NetworkPolicyRule.encodeToVec_named delimited.named]

theorem head_writtenEntries {entries : List (Σ _ : String, NetworkPolicyRule)}
    (delimited : ∀ entry ∈ entries, EntryDelimited entry) :
    ∀ byte ∈ (entries.flatMap writtenEntry).head?, ¬ (byte = 0x12 ∨ byte = 0x1A) := by
  intro byte head
  cases entries with
  | nil => cases head
  | cons entry entries =>
    have here := delimited entry List.mem_cons_self
    rw [List.flatMap_cons, here.written, encode_first] at head
    cases written : utf8Encode entry.1.toList with
    | nil =>
      rw [written] at head
      cases head
      decide
    | cons lead more =>
      rw [written] at head
      cases head
      have large := printable_bytes here.printable byte (by rw [written]; exact List.mem_cons_self)
      rintro (rfl | rfl) <;> exact absurd large (by decide)

theorem key_cut {key other behind further : List UInt8} (printable : ∀ byte ∈ key, 32 ≤ byte)
    (printableToo : ∀ byte ∈ other, 32 ≤ byte) (same : key ++ 0x0A :: behind = other ++ 0x0A :: further) :
    key = other ∧ behind = further := by
  have absent {bytes : List UInt8} (large : ∀ byte ∈ bytes, 32 ≤ byte) : (0x0A : UInt8) ∉ bytes :=
    fun member => absurd (large _ member) (by decide)
  have found := @position_of_notMem UInt8 _ 0x0A [] key (absent printable) behind
  have foundToo := @position_of_notMem UInt8 _ 0x0A [] other (absent printableToo) further
  simp only [List.singleton_append] at found foundToo
  rw [same, foundToo] at found
  obtain ⟨keys, rest⟩ := List.append_inj same (Option.some.inj found).symm
  exact ⟨keys, (List.cons.inj rest).2⟩

theorem delimitedEntries_inj {entries others : List (Σ _ : String, NetworkPolicyRule)}
    (delimited : ∀ entry ∈ entries, EntryDelimited entry) (delimitedToo : ∀ entry ∈ others, EntryDelimited entry)
    (same : entries.flatMap writtenEntry = others.flatMap writtenEntry) : entries = others := by
  induction entries generalizing others with
  | nil =>
    cases others with
    | nil => rfl
    | cons other others =>
      rw [List.flatMap_cons, (delimitedToo other List.mem_cons_self).written, encode_first] at same
      have empty := congrArg List.length same
      simp at empty
  | cons entry entries ih =>
    have here := delimited entry List.mem_cons_self
    have later : ∀ entry ∈ entries, EntryDelimited entry := fun each member =>
      delimited each (List.mem_cons_of_mem _ member)
    cases others with
    | nil =>
      rw [List.flatMap_cons, here.written, encode_first] at same
      have empty := congrArg List.length same
      simp at empty
    | cons other others =>
      have there := delimitedToo other List.mem_cons_self
      have laterToo : ∀ entry ∈ others, EntryDelimited entry := fun each member =>
        delimitedToo each (List.mem_cons_of_mem _ member)
      rw [List.flatMap_cons, List.flatMap_cons, here.written, there.written] at same
      simp only [List.append_assoc] at same
      have keys : utf8Encode entry.1.toList = utf8Encode other.1.toList := by
        rw [encode_first, encode_first] at same
        exact (key_cut (printable_bytes here.printable) (printable_bytes there.printable) same).1
      rw [keys, List.append_cancel_left_eq] at same
      obtain ⟨name, rest⟩ := WireField.encode_prefixFree _ _ _ _ same
      obtain ⟨fields, tails⟩ := encodeFields_cut (lead_furtherFields _) (lead_furtherFields _)
        (head_writtenEntries later) (head_writtenEntries laterToo) rest
      have rules : entry.2 = other.2 := by
        apply NetworkPolicyRule.encodeToVec_injective
        rw [NetworkPolicyRule.encodeToVec_named here.named, NetworkPolicyRule.encodeToVec_named there.named, name, fields]
      rw [Sigma.ext (utf8Encode_toList_inj keys) (heq_of_eq rules), ih later laterToo tails]

theorem encodeToVec_filesystem (policy : FilesystemPolicy) :
    policy.encodeToVec = encodeFields (filesystemFields policy) := by
  rw [FilesystemPolicy.encodeToVec, encodeMessage, filesystemFields]
  simp [List.append_assoc]

theorem lead_fields_filesystem (policy : FilesystemPolicy) :
    ∀ field ∈ filesystemFields policy, ∀ byte ∈ field.lead, byte ≠ 0x0A := by
  intro field member byte lead
  rcases List.mem_append.mp member with earlier | readWrite
  · rcases List.mem_append.mp earlier with workdir | readOnly
    · obtain ⟨payload, held, rfl⟩ := List.mem_map.mp workdir
      have one : payload = .number 1 := by
        unfold flag at held
        split at held
        · exact List.mem_singleton.mp held
        · cases held
      rw [one, WireField.lead_of_tag (rfl : WireField.tag _ = 8) (by decide)] at lead
      cases lead
      decide
    · rw [lead_messages (by decide) field readOnly byte lead]
      decide
  · rw [lead_messages (by decide) field readWrite byte lead]
    decide

theorem SectionsFilled.written {policy : SandboxPolicy} (filled : SectionsFilled policy) :
    ∃ filesystem compatibility user group, policy.filesystem = some filesystem ∧
      policy.landlock = some ⟨compatibility⟩ ∧ policy.process = some ⟨user, group⟩ ∧
      policy.sections = encodeFields (filesystemFields filesystem) ++
        (WireField.encode ⟨1, .bytes (utf8Encode compatibility.toList)⟩ ++
          (WireField.encode ⟨1, .bytes (utf8Encode user.toList)⟩ ++ WireField.encode ⟨2, .bytes (utf8Encode group.toList)⟩)) := by
  obtain ⟨filesystem, isFilesystem⟩ := Option.isSome_iff_exists.mp filled.filesystem
  obtain ⟨compatibility, chosen, isLandlock⟩ := filled.landlock
  obtain ⟨user, group, named, grouped, isProcess⟩ := filled.process
  refine ⟨filesystem, compatibility, user, group, isFilesystem, isLandlock, isProcess, ?_⟩
  rw [SandboxPolicy.sections, isFilesystem, isLandlock, isProcess, Option.elim_some, Option.elim_some, Option.elim_some,
    encodeToVec_filesystem, LandlockPolicy.encodeToVec, ProcessPolicy.encodeToVec, text_filled chosen, text_filled named,
    text_filled grouped]
  simp [encodeMessage, encodeFields, Piece.fields]

theorem sections_cut {behind further : List UInt8} (filled : SectionsFilled first) (filledToo : SectionsFilled second)
    (same : first.sections ++ behind = second.sections ++ further) : SameSections first second ∧ behind = further := by
  obtain ⟨filesystem, compatibility, user, group, isFilesystem, isLandlock, isProcess, written⟩ := filled.written
  obtain ⟨filesystem', compatibility', user', group', isFilesystem', isLandlock', isProcess', written'⟩ :=
    filledToo.written
  rw [written, written'] at same
  simp only [List.append_assoc] at same
  have ends (content : List UInt8) (more : List UInt8) :
      ∀ byte ∈ (WireField.encode ⟨1, .bytes content⟩ ++ more).head?, ¬ byte ≠ 0x0A := by
    rw [encode_first]
    intro byte lead other
    exact other (Option.some.inj lead).symm
  obtain ⟨fields, afterFilesystem⟩ := encodeFields_cut (lead_fields_filesystem _) (lead_fields_filesystem _)
    (ends _ _) (ends _ _) same
  obtain ⟨landlock, afterLandlock⟩ := WireField.encode_prefixFree _ _ _ _ afterFilesystem
  obtain ⟨users, afterUser⟩ := WireField.encode_prefixFree _ _ _ _ afterLandlock
  obtain ⟨groups, rest⟩ := WireField.encode_prefixFree _ _ _ _ afterUser
  have filesystems : filesystem = filesystem' := by
    apply FilesystemPolicy.encodeToVec_injective
    rw [encodeToVec_filesystem, encodeToVec_filesystem, fields]
  have text_of {number : Nat} {value other : String}
      (field : WireField.mk number (.bytes (utf8Encode value.toList)) = ⟨number, .bytes (utf8Encode other.toList)⟩) :
      value = other := utf8Encode_toList_inj (Payload.bytes.inj (WireField.mk.inj field).2)
  refine ⟨⟨?_, ?_, ?_⟩, rest⟩
  · rw [isFilesystem, isFilesystem', filesystems]
  · rw [isLandlock, isLandlock', text_of landlock]
  · rw [isProcess, isProcess', text_of users, text_of groups]

theorem Delimited.sections_cut (delimited : Delimited first second)
    (same : first.sections ++ first.entries = second.sections ++ second.entries) :
    SameSections first second ∧ first.entries = second.entries := by
  rcases delimited.sections with sections | ⟨filled, filledToo⟩
  · rw [sections.written] at same
    exact ⟨sections, List.append_cancel_left same⟩
  · exact Proto.sections_cut filled filledToo same

theorem same_of_delimited (version : first.version = second.version) (delimited : Delimited first second)
    (same : first.sections ++ first.entries = second.sections ++ second.entries) : first.value.Same second.value := by
  obtain ⟨sections, written⟩ := delimited.sections_cut same
  have perm := SortedMap.sortEntries_perm first.networkPolicies
  have permToo := SortedMap.sortEntries_perm second.networkPolicies
  have sorted := delimitedEntries_inj
    (fun entry member => delimited.entries entry (List.mem_append_left _ (perm.mem_iff.mp member)))
    (fun entry member => delimited.entries entry (List.mem_append_right _ (permToo.mem_iff.mp member))) written
  rw [sorted] at perm
  exact ⟨version, sections.filesystem, sections.landlock, sections.process, (perm.symm.trans permToo).map _⟩

end Parts

/-! The bytes of the items. -/

section Items

variable {first second policy : SandboxPolicy}

theorem encodeItems_fields (fields : List WireField) : encodeItems (fields.map .field) = encodeFields fields := by
  rw [encodeItems, List.flatMap_map]
  rfl

theorem encodeItems_append (items others : List Item) :
    encodeItems (items ++ others) = encodeItems items ++ encodeItems others := List.flatMap_append

theorem encodeItems_entry (entry : Σ _ : String, NetworkPolicyRule) :
    encodeItems (entry.1.toList.map .letter ++ entry.2.fields.map .field) = writtenEntry entry := by
  rw [encodeItems_append, encodeItems_fields, encodeItems, List.flatMap_map]
  rfl

theorem encodeItems_items (policy : SandboxPolicy) : encodeItems policy.items = policy.sections ++ policy.entries := by
  have filesystem : encodeFields (policy.filesystem.elim [] filesystemFields) =
      policy.filesystem.elim [] FilesystemPolicy.encodeToVec := by
    cases policy.filesystem with
    | none => rfl
    | some held => exact (encodeToVec_filesystem held).symm
  have landlock : encodeFields (policy.landlock.elim [] landlockFields) =
      policy.landlock.elim [] LandlockPolicy.encodeToVec := by
    cases policy.landlock with
    | none => rfl
    | some held => simp [LandlockPolicy.encodeToVec, encodeMessage, landlockFields]
  have process : encodeFields (policy.process.elim [] processFields) =
      policy.process.elim [] ProcessPolicy.encodeToVec := by
    cases policy.process with
    | none => rfl
    | some held => simp [ProcessPolicy.encodeToVec, encodeMessage, processFields]
  have entries : encodeItems ((SortedMap.sortEntries policy.networkPolicies).flatMap fun entry =>
      entry.1.toList.map .letter ++ entry.2.fields.map .field) = policy.entries := by
    rw [encodeItems, List.flatMap_assoc]
    exact List.flatMap_congr fun entry _ => encodeItems_entry entry
  rw [SandboxPolicy.items, encodeItems_append, encodeItems_fields, entries, SandboxPolicy.sections, ← filesystem,
    ← landlock, ← process]
  simp only [encodeFields, List.flatMap_append]

theorem tag_small {number : Nat} {payloads : List Payload} (small : number ≤ 3) :
    ∀ field ∈ Piece.fields (number, payloads), field.tag < 32 := by
  intro field member
  obtain ⟨payload, _, rfl⟩ := List.mem_map.mp member
  have kind : payload.wireType ≤ 2 := by
    cases payload with
    | number value => exact Nat.zero_le 2
    | bytes content => exact Nat.le_refl 2
  calc WireField.tag ⟨number, payload⟩ ≤ 8 * 3 + 2 := Nat.add_le_add (Nat.mul_le_mul_left 8 small) kind
    _ < 32 := by decide

theorem tag_items {field : WireField} (member : .field field ∈ policy.items) : field.tag < 32 := by
  rcases List.mem_append.mp member with inSections | inEntries
  · obtain ⟨held, inFields, same⟩ := List.mem_map.mp inSections
    cases same
    rcases List.mem_append.mp inFields with inFilesystem | inFields
    · cases isFilesystem : policy.filesystem with
      | none =>
        rw [isFilesystem] at inFilesystem
        cases inFilesystem
      | some filesystem =>
        rw [isFilesystem] at inFilesystem
        rcases List.mem_append.mp inFilesystem with earlier | readWrite
        · rcases List.mem_append.mp earlier with workdir | readOnly
          · exact tag_small (by decide) _ workdir
          · exact tag_small (by decide) _ readOnly
        · exact tag_small (by decide) _ readWrite
    · rcases List.mem_append.mp inFields with inLandlock | inProcess
      · cases isLandlock : policy.landlock with
        | none =>
          rw [isLandlock] at inLandlock
          cases inLandlock
        | some landlock =>
          rw [isLandlock] at inLandlock
          exact tag_small (by decide) _ inLandlock
      · cases isProcess : policy.process with
        | none =>
          rw [isProcess] at inProcess
          cases inProcess
        | some process =>
          rw [isProcess] at inProcess
          rcases List.mem_append.mp inProcess with user | group
          · exact tag_small (by decide) _ user
          · exact tag_small (by decide) _ group
  · obtain ⟨entry, _, inEntry⟩ := List.mem_flatMap.mp inEntries
    rcases List.mem_append.mp inEntry with inKey | inRule
    · obtain ⟨c, _, same⟩ := List.mem_map.mp inKey
      cases same
    · obtain ⟨held, inFields, same⟩ := List.mem_map.mp inRule
      cases same
      obtain ⟨piece, inPieces, inPiece⟩ := List.mem_flatMap.mp inFields
      have number : piece.1 ≤ 3 := by
        simp only [NetworkPolicyRule.pieces, List.mem_cons, List.not_mem_nil, or_false] at inPieces
        rcases inPieces with rfl | rfl | rfl <;> simp only [Nat.reduceLeDiff]
      exact tag_small number _ inPiece

theorem distinguished_iff :
    Distinguished first second ↔ first.sections ++ first.entries ≠ second.sections ++ second.entries := by
  have spelled := @encodeItems_eq_iff first.items second.items fun field member =>
    Nat.lt_trans ((List.mem_append.mp member).elim tag_items tag_items) (by decide)
  rw [← encodeItems_items, ← encodeItems_items, Ne, spelled, not_or, not_or]
  exact ⟨fun told => ⟨told.items, told.unspelled, told.unspelledToo⟩, fun ⟨items, one, other⟩ => ⟨items, one, other⟩⟩

/-- No tag is a printable character. -/
theorem not_clashes {others : List Item} (printable : ∀ c, .letter c ∈ others → 32 ≤ c.toNat) :
    ¬ Clashes policy.items others := by
  rintro ⟨common, rest, further, field, c, clash⟩
  have inItems : .field field ∈ policy.items := by
    rw [clash.items]
    exact List.mem_append_right _ List.mem_cons_self
  have inOthers : .letter c ∈ others := by
    rw [clash.others]
    exact List.mem_append_right _ List.mem_cons_self
  have small := tag_items inItems
  have large := printable c inOthers
  rw [clash.tag] at large
  omega

theorem distinguished_of_printable (differ : first.items ≠ second.items)
    (printable : ∀ c, .letter c ∈ first.items ++ second.items → 32 ≤ c.toNat) : Distinguished first second where
  items := differ
  unspelled := not_clashes fun c member => printable c (List.mem_append_right _ member)
  unspelledToo := not_clashes fun c member => printable c (List.mem_append_left _ member)

end Items

/-! The hash. -/

theorem nextRevision_eq_none_iff (digest : List UInt8 → String) (version : Nat) (recorded submitted : SandboxPolicy) :
    nextRevision digest (some (revisionOf digest version recorded)) submitted = none ↔
      deterministicPolicyHash digest recorded = deterministicPolicyHash digest submitted := by
  simp [nextRevision, revisionOf]

theorem policy_hash_identifies_iff (digest : List UInt8 → String) (recorded submitted : SandboxPolicy)
    (collisionFree : digest recorded.hashInput = digest submitted.hashInput →
      recorded.hashInput = submitted.hashInput) :
    Identifies digest recorded submitted ↔ ToldApart recorded submitted := by
  constructor
  · intro identifies
    refine ⟨fun same => ?_, fun different => ?_⟩
    · exact (hashInput_iff_of_same same).mp (collisionFree (identifies.hash.mpr same))
    · by_cases version : recorded.version = submitted.version
      · refine Or.inr (Or.inr (distinguished_iff.mpr fun bytes => different (identifies.hash.mp (congrArg digest ?_))))
        rw [SandboxPolicy.hashInput, SandboxPolicy.hashInput, version, bytes]
      · exact Or.inl version
  · intro told
    have hash : deterministicPolicyHash digest recorded = deterministicPolicyHash digest submitted ↔
        recorded.value.Same submitted.value := by
      constructor
      · intro equal
        obtain ⟨versions, bytes⟩ := List.append_inj (collisionFree equal) rfl
        have version := toLeBytes_injective versions
        by_contra different
        rcases told.apart different with other | delimited | apart
        · exact other version
        · exact different (same_of_delimited version delimited bytes)
        · exact distinguished_iff.mp apart bytes
      · intro same
        exact congrArg digest ((hashInput_iff_of_same same).mpr (told.ordered same))
    exact ⟨hash, fun version => (nextRevision_eq_none_iff digest version recorded submitted).trans hash⟩

def namedPolicy (name : String) : SandboxPolicy where
  version := 1
  filesystem := some { includeWorkdir := true, readOnly := ["/usr"] }
  landlock := some ⟨"best_effort"⟩
  process := some ⟨"sandbox", "sandbox"⟩
  networkPolicies := AList.singleton name { name }

/-- The SHA-256 digests of two inputs. -/
def digestOfTwo (bytes : List UInt8) : String :=
  if bytes = (namedPolicy "git").hashInput then "723bdf28b84477d0cc38a1c30115542aab0da296ccbadcb3d60d513248656b71"
  else if bytes = (namedPolicy "npm").hashInput then
    "a481ea16821bd10319d3b8bd27c13b9bc13271b2d80bb41caea70079391c1f43"
  else hexEncode bytes

theorem digestOfTwo_collisionFree
    (same : digestOfTwo (namedPolicy "git").hashInput = digestOfTwo (namedPolicy "npm").hashInput) :
    (namedPolicy "git").hashInput = (namedPolicy "npm").hashInput := by
  by_contra different
  rw [digestOfTwo, digestOfTwo, if_pos rfl, if_neg (Ne.symm different), if_pos rfl] at same
  exact absurd same (by decide)

theorem namedPolicies_differ : ¬ (namedPolicy "git").value.Same (namedPolicy "npm").value := by
  intro same
  exact absurd (same.lookup "git") (by decide)

theorem namedPolicies_identified : Identifies digestOfTwo (namedPolicy "git") (namedPolicy "npm") := by
  refine (policy_hash_identifies_iff digestOfTwo _ _ digestOfTwo_collisionFree).mpr
    ⟨fun same => absurd same namedPolicies_differ, fun _ => Or.inr (Or.inl ⟨Or.inl ⟨rfl, rfl, rfl⟩, ?_⟩)⟩
  have printable {name : String} (all : (name.toList.all fun c => 32 ≤ c.toNat) = true) :
      ∀ c ∈ name.toList, 32 ≤ c.toNat := fun c held => of_decide_eq_true (List.all_eq_true.mp all c held)
  intro entry member
  rcases List.mem_append.mp member with first | second
  · rw [List.mem_singleton.mp first]
    exact ⟨printable (by decide), by decide⟩
  · rw [List.mem_singleton.mp second]
    exact ⟨printable (by decide), by decide⟩

/-! A key that is cut in two around an empty rule, and a query map in two orders. -/

def cutPolicy : SandboxPolicy := { networkPolicies := (AList.singleton "b" {}).insert "a" {} }

def wholePolicy : SandboxPolicy := { networkPolicies := AList.singleton "ab" {} }

def queryPolicy (query : StringMap L7QueryMatcher) : SandboxPolicy :=
  { networkPolicies := AList.singleton "api" { endpoints := [{ rules := [{ allow := some { query } }] }] } }

def NetworkPolicyRule.queryKeys (rule : NetworkPolicyRule) : List (List String) :=
  rule.endpoints.flatMap fun endpoint =>
    endpoint.rules.map fun held => held.allow.elim [] fun allow => allow.query.keys

def pageFirst : StringMap L7QueryMatcher := (AList.singleton "size" {}).insert "page" {}

def sizeFirst : StringMap L7QueryMatcher := (AList.singleton "page" {}).insert "size" {}

theorem cutPolicy_hashInput : cutPolicy.hashInput = wholePolicy.hashInput := by
  have sorted : SortedMap.sortEntries cutPolicy.networkPolicies = [⟨"a", {}⟩, ⟨"b", {}⟩] :=
    List.mergeSort_of_pairwise (by decide)
  have lone : SortedMap.sortEntries wholePolicy.networkPolicies = [⟨"ab", {}⟩] :=
    List.mergeSort_of_pairwise (by decide)
  rw [SandboxPolicy.hashInput, SandboxPolicy.hashInput, SandboxPolicy.entries, SandboxPolicy.entries, sorted, lone]
  decide +kernel

theorem queryPolicies_same : (queryPolicy pageFirst).value.Same (queryPolicy sizeFirst).value := by
  have entries : pageFirst.entries.Perm sizeFirst.entries := .swap _ _ _
  have allow : L7Allow.value { query := pageFirst } = L7Allow.value { query := sizeFirst } := by
    simp only [L7Allow.value, AList.toFinmap_eq.mpr entries]
  have rules (query : StringMap L7QueryMatcher) : (queryPolicy query).value.networkPolicies.entries =
      [⟨"api", { endpoints := [{ rules := [{ allow := some (L7Allow.value { query }) }] }] }⟩] := rfl
  refine ⟨rfl, rfl, rfl, rfl, .of_eq ?_⟩
  rw [rules, rules, allow]

theorem hash_misidentifies : ¬ Identifies hexEncode cutPolicy wholePolicy ∧
    ¬ Identifies hexEncode (queryPolicy pageFirst) (queryPolicy sizeFirst) := by
  constructor
  · intro identifies
    have same := identifies.hash.mp (congrArg hexEncode cutPolicy_hashInput)
    exact absurd (same.lookup "ab") (by decide)
  · intro identifies
    have hashes := identifies.hash.mpr queryPolicies_same
    have texts := congrArg (fun text : String => hexDecode text.toList) hashes
    simp only [deterministicPolicyHash, hexDecode_hexEncode] at texts
    have lookups := (hashInput_iff_of_same queryPolicies_same).mp (Except.ok.inj texts)
    exact absurd (congrArg (·.map NetworkPolicyRule.queryKeys) (lookups "api")) (by decide)

end OpenShell.Policy.Proto
