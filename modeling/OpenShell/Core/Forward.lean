import OpenShell.Lib.Machine
import OpenShell.Lib.Maps
import OpenShell.Lib.Numbers

namespace OpenShell.Core

open Text Maps

/-! The files that track the ports forwarded into sandboxes. -/

/-- The files of the directory by their names. -/
abbrev Directory : Type := AList fun _ : List Char => List Char

/-- One reading of the directory. It gives every file once, in an order that is left open. -/
structure ReadDir where
  list : Directory → List (List Char)
  whole : ∀ dir, (list dir).Perm dir.keys

structure ForwardPidRecord where
  pid : UInt32
  sandboxId : Option (List Char)
  bindAddr : Option (List Char)
deriving DecidableEq

def pidSuffix : List Char := ".pid".toList

def forwardPidFile (name : List Char) (port : UInt16) : List Char :=
  name ++ '-' :: (Nat.toDigits 10 port.toNat ++ pidSuffix)

def parsePort (text : List Char) : Option UInt16 := (parseUnsigned 10 (2 ^ 16) text).map UInt16.ofNat

def parsePid (text : List Char) : Option UInt32 := (parseUnsigned 10 (2 ^ 32) text).map UInt32.ofNat

def pidContents (pid : UInt32) (sandboxId bindAddr : List Char) : List Char :=
  Nat.toDigits 10 pid.toNat ++ '\t' :: (sandboxId ++ '\t' :: bindAddr)

def writeForwardPid (name : List Char) (port : UInt16) (pid : UInt32) (sandboxId bindAddr : List Char)
    (dir : Directory) : Directory :=
  dir.insert (forwardPidFile name port) (pidContents pid sandboxId bindAddr)

def parseRecord (contents : List Char) : Option ForwardPidRecord := do
  let parts := split '\t' contents
  let pid ← parsePid (trim (← parts[0]?))
  some ⟨pid, parts[1]?, parts[2]?.map trim⟩

def readForwardPid (name : List Char) (port : UInt16) (dir : Directory) : Option ForwardPidRecord :=
  (dir.lookup (forwardPidFile name port)).bind parseRecord

def removeFile (file : List Char) (dir : Directory) : Directory := retain (fun other _ => other ≠ file) dir

/-- What `kill -0` and `ps` say of a process. -/
structure Processes where
  isAlive : UInt32 → Bool
  commandOf : UInt32 → Option (List Char)

def Processes.matchesForward (processes : Processes) (pid : UInt32) (port : UInt16) (sandboxId : Option (List Char)) :
    Bool :=
  (processes.commandOf pid).any fun cmd =>
    let digits := Nat.toDigits 10 port.toNat
    contains cmd "ssh".toList && contains cmd "ssh-proxy".toList &&
      contains cmd (digits ++ ":127.0.0.1:".toList ++ digits) && sandboxId.all (contains cmd)

/-- What a command has done: the ports that it reports as stopped, and the processes that it has killed. -/
structure Outcome where
  stopped : List UInt16 := []
  killed : List UInt32 := []
deriving DecidableEq

def Outcome.append (first second : Outcome) : Outcome :=
  ⟨first.stopped ++ second.stopped, first.killed ++ second.killed⟩

/-- A process that has taken over the id is left alone, and its file goes all the same. -/
def stopOutcome (processes : Processes) (port : UInt16) (record : ForwardPidRecord) : Outcome :=
  if processes.isAlive record.pid then
    if processes.matchesForward record.pid port record.sandboxId then ⟨[port], [record.pid]⟩ else {}
  else ⟨[port], []⟩

def stopForward (processes : Processes) (name : List Char) (port : UInt16) (dir : Directory) : Outcome × Directory :=
  match readForwardPid name port dir with
  | none => ({}, dir)
  | some record => (stopOutcome processes port record, removeFile (forwardPidFile name port) dir)

def stripSuffixText (suffix text : List Char) : Option (List Char) :=
  (stripPrefix suffix.reverse text.reverse).map List.reverse

/-- The port of a file of the sandbox. -/
def portOfFile (name file : List Char) : Option UInt16 := do
  let rest ← stripPrefix (name ++ ['-']) file
  parsePort (← stripSuffixText pidSuffix rest)

def stopFile (processes : Processes) (name : List Char) (state : Outcome × Directory) (file : List Char) :
    Outcome × Directory :=
  match portOfFile name file with
  | none => state
  | some port =>
    let (outcome, dir) := stopForward processes name port state.2
    (state.1.append outcome, dir)

def stopForwardsForSandbox (reading : ReadDir) (processes : Processes) (name : List Char) (dir : Directory) :
    Outcome × Directory :=
  (reading.list dir).foldl (stopFile processes name) ({}, dir)

structure ForwardInfo where
  sandbox : List Char
  port : UInt16
  pid : UInt32
  alive : Bool
  bindAddr : List Char
deriving DecidableEq

def defaultBindAddr : List Char := "127.0.0.1".toList

def forwardInfo (processes : Processes) (dir : Directory) (file : List Char) : Option ForwardInfo := do
  let stem ← stripSuffixText pidSuffix file
  let (sandbox, digits) ← rsplitOnce '-' stem
  let port ← parsePort digits
  let record ← readForwardPid sandbox port dir
  some ⟨sandbox, port, record.pid, processes.isAlive record.pid, record.bindAddr.getD defaultBindAddr⟩

def ForwardInfo.before (first second : ForwardInfo) : Bool :=
  first.sandbox < second.sandbox || first.sandbox = second.sandbox && first.port ≤ second.port

def listForwards (reading : ReadDir) (processes : Processes) (dir : Directory) : List ForwardInfo :=
  ((reading.list dir).filterMap (forwardInfo processes dir)).mergeSort ForwardInfo.before

def findForwardByPort (reading : ReadDir) (port : UInt16) (dir : Directory) : Option (List Char) :=
  (reading.list dir).findSome? fun file =>
    (stripSuffixText ('-' :: (Nat.toDigits 10 port.toNat ++ pidSuffix)) file).filter fun name => !name.isEmpty

/-! What is read of a file. -/

section Files

variable {name other text : List Char} {port : UInt16}

theorem digit_of_mem {value : Nat} {c : Char} (member : c ∈ Nat.toDigits 10 value) : '0' ≤ c ∧ c ≤ '9' := by
  have digit := toDigit_of_mem_toDigits (by decide) toDigit_decimal value c member
  rw [toDigit_ten] at digit
  by_contra outside
  rw [if_neg outside] at digit
  cases digit

theorem digit_not_whitespace {c : Char} (digit : '0' ≤ c ∧ c ≤ '9') : isWhitespace c = false := by
  have low : 48 ≤ c.toNat := digit.1
  have high : c.toNat ≤ 57 := digit.2
  unfold isWhitespace
  simp only [Bool.or_eq_false_iff, Bool.and_eq_false_iff, decide_eq_false_iff_not]
  omega

theorem split_cons {separator : Char} {piece : List Char} (whole : separator ∉ piece) (text : List Char) :
    split separator (piece ++ separator :: text) = piece :: split separator text := by
  refine splitWhen_append ?_ (by simp) text
  intro c member
  refine decide_eq_false ?_
  intro same
  exact whole (same ▸ member)

theorem notMem_toDigits {value : Nat} {c : Char} (outside : ¬('0' ≤ c ∧ c ≤ '9')) : c ∉ Nat.toDigits 10 value :=
  fun member => outside (digit_of_mem member)

theorem parsePort_digits (port : UInt16) : parsePort (Nat.toDigits 10 port.toNat) = some port := by
  rw [parsePort, parseUnsigned_toDigits port.toNat_lt, Option.map_some, UInt16.ofNat_toNat]

theorem parsePid_digits (pid : UInt32) : parsePid (Nat.toDigits 10 pid.toNat) = some pid := by
  rw [parsePid, parseUnsigned_toDigits pid.toNat_lt, Option.map_some, UInt32.ofNat_toNat]

theorem stripSuffixText_eq_some {suffix rest : List Char} :
    stripSuffixText suffix text = some rest ↔ text = rest ++ suffix := by
  rw [stripSuffixText, Option.map_eq_some_iff]
  constructor
  · intro found
    obtain ⟨back, cut, rfl⟩ := found
    have whole := stripPrefix_eq_some.1 cut
    rw [← List.reverse_reverse text, whole, List.reverse_append, List.reverse_reverse]
  · rintro rfl
    exact ⟨rest.reverse, stripPrefix_eq_some.2 (by rw [List.reverse_append]), List.reverse_reverse rest⟩

/-- Behind the last dash of a name there are the digits and the suffix. -/
theorem dash_notMem_tail (port : UInt16) : '-' ∉ Nat.toDigits 10 port.toNat ++ pidSuffix := by
  intro member
  rcases List.mem_append.1 member with digits | suffix
  · exact notMem_toDigits (by decide) digits
  · exact absurd suffix (by decide)

theorem dash_notMem_port (parsed : parsePort text = some port) : '-' ∉ text := by
  obtain ⟨value, read, _⟩ := Option.map_eq_some_iff.1 parsed
  have plain : ∀ digits, parseDigits 10 (2 ^ 16) 0 digits = some value → '-' ∉ digits := by
    intro digits read member
    have digit := ((parseDigits_eq_some_iff (by decide) (by decide)).1 read).1 '-' member
    exact absurd digit (by decide)
  unfold parseUnsigned at read
  extract_lets digits at read
  split at read
  · cases read
  · have outside := plain digits read
    intro member
    by_cases signed : text.head? = some '+'
    · have tail : digits = text.tail := if_pos signed
      rw [List.eq_cons_of_mem_head? signed] at member
      rcases List.mem_cons.1 member with first | later
      · cases first
      · exact outside (tail ▸ later)
    · have whole : digits = text := if_neg signed
      exact outside (whole ▸ member)

theorem forwardPidFile_unique {first second : List Char} {one two : UInt16}
    (same : forwardPidFile first one = forwardPidFile second two) : first = second ∧ one = two := by
  obtain ⟨names, tails⟩ := append_cons_unique (dash_notMem_tail one) (dash_notMem_tail two) same
  have digits := List.append_cancel_right tails
  have ports := congrArg parsePort digits
  rw [parsePort_digits, parsePort_digits, Option.some.injEq] at ports
  exact ⟨names, ports⟩

theorem portOfFile_file (name other : List Char) (port : UInt16) :
    portOfFile name (forwardPidFile other port) = if other = name then some port else none := by
  have found : ∀ result, portOfFile name (forwardPidFile other port) = some result → other = name := by
    intro result read
    unfold portOfFile at read
    simp only [bind, Option.bind_eq_some_iff] at read
    obtain ⟨rest, lead, digits, tail, parsed⟩ := read
    have whole := stripPrefix_eq_some.1 lead
    rw [stripSuffixText_eq_some.1 tail, List.append_assoc, List.singleton_append] at whole
    have outside : '-' ∉ digits ++ pidSuffix := by
      intro member
      rcases List.mem_append.1 member with early | late
      · exact dash_notMem_port parsed early
      · exact absurd late (by decide)
    exact (append_cons_unique (dash_notMem_tail port) outside whole).1
  split
  · rename_i same
    subst same
    have lead : stripPrefix (other ++ ['-']) (forwardPidFile other port) =
        some (Nat.toDigits 10 port.toNat ++ pidSuffix) := by
      rw [stripPrefix_eq_some, List.append_assoc]
      rfl
    have tail : stripSuffixText pidSuffix (Nat.toDigits 10 port.toNat ++ pidSuffix) =
        some (Nat.toDigits 10 port.toNat) := stripSuffixText_eq_some.2 rfl
    simp only [portOfFile, lead, tail, bind, Option.bind_some, parsePort_digits]
  · rename_i apart
    rw [Option.eq_none_iff_forall_ne_some]
    intro result read
    exact apart (found result read)

end Files

/-! What the files stand for. -/

/-- The name of a file has neither a slash nor a null in it, so that the files of every sandbox lie in the one
directory. -/
structure SandboxName where
  text : List Char
  plain : ∀ c ∈ text, c ≠ '/' ∧ c.toNat ≠ 0
deriving DecidableEq

/-- A forward that is tracked. Neither text has a tab, and the address has no blanks around it. -/
structure Tracked where
  pid : UInt32
  sandboxId : List Char
  bindAddr : List Char
  plainId : '\t' ∉ sandboxId
  plainAddr : '\t' ∉ bindAddr
  trimmed : trim bindAddr = bindAddr

def Tracked.record (tracked : Tracked) : ForwardPidRecord :=
  ⟨tracked.pid, some tracked.sandboxId, some tracked.bindAddr⟩

def Tracked.contents (tracked : Tracked) : List Char := pidContents tracked.pid tracked.sandboxId tracked.bindAddr

abbrev Table : Type := AList fun _ : SandboxName × UInt16 => Tracked

abbrev Entry : Type := Σ _ : SandboxName × UInt16, Tracked

def Entry.file (entry : Entry) : List Char := forwardPidFile entry.1.1.text entry.1.2

/-- The same ports and processes, in whatever order. -/
structure Outcome.Same (first second : Outcome) : Prop where
  stopped : first.stopped.Perm second.stopped
  killed : first.killed.Perm second.killed

theorem fileOf_injective :
    Function.Injective fun key : SandboxName × UInt16 => forwardPidFile key.1.text key.2 := by
  rintro ⟨⟨first, plain⟩, one⟩ ⟨⟨second, plainToo⟩, two⟩ same
  obtain ⟨names, ports⟩ := forwardPidFile_unique same
  dsimp only at names
  subst names ports
  rfl

namespace Table

def files (table : Table) : Directory :=
  rekey (fun key => forwardPidFile key.1.text key.2) fileOf_injective Tracked.contents table

def stop (processes : Processes) (name : SandboxName) (port : UInt16) (table : Table) : Outcome × Table :=
  match table.lookup (name, port) with
  | none => ({}, table)
  | some tracked => (stopOutcome processes port tracked.record, retain (fun key _ => key ≠ (name, port)) table)

def stopEntry (processes : Processes) (name : SandboxName) (entry : Entry) : Outcome :=
  if entry.1.1 = name then stopOutcome processes entry.1.2 entry.2.record else {}

def stopEntries (processes : Processes) (name : SandboxName) (entries : List Entry) : Outcome :=
  ⟨entries.flatMap fun entry => (stopEntry processes name entry).stopped,
    entries.flatMap fun entry => (stopEntry processes name entry).killed⟩

/-- The forwards of one sandbox, and those of no other. -/
def stopAll (processes : Processes) (name : SandboxName) (table : Table) : Outcome × Table :=
  (stopEntries processes name table.entries, retain (fun key _ => key.1 ≠ name) table)

def info (processes : Processes) (entry : Entry) : ForwardInfo :=
  ⟨entry.1.1.text, entry.1.2, entry.2.pid, processes.isAlive entry.2.pid, entry.2.bindAddr⟩

def list (processes : Processes) (table : Table) : List ForwardInfo :=
  (table.entries.map (info processes)).mergeSort ForwardInfo.before

/-- What is found for a port: a sandbox that has a forward from it if there is one, and of several any. -/
structure Found (table : Table) (port : UInt16) (result : Option (List Char)) : Prop where
  held : ∀ text, result = some text → text ≠ [] ∧ ∃ name, SandboxName.text name = text ∧ (name, port) ∈ table
  missed : result = none → ∀ name, (name, port) ∈ table → SandboxName.text name = []

end Table

section Refines

variable {table : Table} {name : SandboxName} {port : UInt16} {processes : Processes} {reading : ReadDir}

theorem parseRecord_contents (tracked : Tracked) : parseRecord tracked.contents = some tracked.record := by
  have plain : '\t' ∉ Nat.toDigits 10 tracked.pid.toNat := notMem_toDigits (by decide)
  have cut : split '\t' tracked.contents =
      [Nat.toDigits 10 tracked.pid.toNat, tracked.sandboxId, tracked.bindAddr] := by
    rw [Tracked.contents, pidContents, split_cons plain, split_cons tracked.plainId, split_whole tracked.plainAddr]
  have unspaced : ∀ c ∈ Nat.toDigits 10 tracked.pid.toNat, isWhitespace c = false :=
    fun c member => digit_not_whitespace (digit_of_mem member)
  have whole : trim (Nat.toDigits 10 tracked.pid.toNat) = Nat.toDigits 10 tracked.pid.toNat := by
    refine trim_whole ?_ ?_
    · intro c first
      exact unspaced c (List.mem_of_mem_head? first)
    · intro c last
      exact unspaced c (List.mem_of_mem_getLast? last)
  simp only [parseRecord, cut, bind, List.getElem?_cons_zero, List.getElem?_cons_succ, Option.bind_some, whole,
    parsePid_digits, Option.map_some, tracked.trimmed]
  rfl

theorem readForwardPid_files :
    readForwardPid name.text port table.files = (table.lookup (name, port)).map Tracked.record := by
  have found : table.files.lookup (forwardPidFile name.text port) = (table.lookup (name, port)).map Tracked.contents :=
    @lookup_rekey _ _ _ _ _ _ _ fileOf_injective _ table (name, port)
  rw [readForwardPid, found]
  cases table.lookup (name, port) with
  | none => rfl
  | some tracked => exact parseRecord_contents tracked

theorem writeForwardPid_files (tracked : Tracked) :
    writeForwardPid name.text port tracked.pid tracked.sandboxId tracked.bindAddr table.files =
      Table.files (table.insert (name, port) tracked) :=
  (@rekey_insert _ _ _ _ _ _ _ fileOf_injective Tracked.contents table (name, port) tracked).symm

theorem removeFile_files : removeFile (forwardPidFile name.text port) table.files =
    Table.files (retain (fun key _ => key ≠ (name, port)) table) := by
  apply AList.ext
  simp only [removeFile, retain, Table.files, rekey, List.filter_map]
  congr 1
  refine List.filter_congr ?_
  intro entry _
  have keys : forwardPidFile entry.1.1.text entry.1.2 ≠ forwardPidFile name.text port ↔ entry.1 ≠ (name, port) :=
    not_congr ⟨fun same => @fileOf_injective entry.1 (name, port) same, fun same => by rw [same]⟩
  simp only [Function.comp_apply]
  exact decide_eq_decide.2 keys

theorem stopForward_files : stopForward processes name.text port table.files =
    ((table.stop processes name port).1, (table.stop processes name port).2.files) := by
  unfold stopForward Table.stop
  rw [readForwardPid_files]
  cases table.lookup (name, port) with
  | none => rfl
  | some tracked =>
    rw [Option.map_some, removeFile_files]

def without (name : SandboxName) (keys : List (SandboxName × UInt16)) (table : Table) : Table :=
  retain (fun key _ => !(key.1 = name && keys.contains key)) table

theorem without_nil (name : SandboxName) (table : Table) : without name [] table = table := by
  apply AList.ext
  simp [without, retain]

theorem without_own (name : SandboxName) (port : UInt16) (keys : List (SandboxName × UInt16)) (table : Table) :
    without name ((name, port) :: keys) table = without name keys (retain (fun key _ => key ≠ (name, port)) table) := by
  apply AList.ext
  simp only [without, retain, List.filter_filter]
  refine List.filter_congr ?_
  intro entry _
  by_cases same : entry.1 = (name, port)
  · simp [same]
  · simp [same]

theorem without_other {name other : SandboxName} (apart : other ≠ name) (port : UInt16)
    (keys : List (SandboxName × UInt16)) (table : Table) :
    without name ((other, port) :: keys) table = without name keys table := by
  apply AList.ext
  simp only [without, retain]
  refine List.filter_congr ?_
  intro entry _
  by_cases same : entry.1 = (other, port)
  · simp [same, apart]
  · simp [same]

theorem SandboxName.text_injective {first second : SandboxName} (same : first.text = second.text) : first = second := by
  obtain ⟨text, plain⟩ := first
  obtain ⟨other, plainToo⟩ := second
  dsimp only at same
  subst same
  rfl

theorem stopFile_own (outcome : Outcome) {tracked : Tracked} (held : table.lookup (name, port) = some tracked) :
    stopFile processes name.text (outcome, table.files) (forwardPidFile name.text port) =
      (outcome.append (stopOutcome processes port tracked.record),
        Table.files (retain (fun key _ => key ≠ (name, port)) table)) := by
  simp only [stopFile, portOfFile_file, if_true, stopForward_files, Table.stop, held]

theorem stopFile_other (outcome : Outcome) {other : SandboxName} (apart : other ≠ name) :
    stopFile processes name.text (outcome, table.files) (forwardPidFile other.text port) = (outcome, table.files) := by
  have texts : other.text ≠ name.text := fun same => apart (SandboxName.text_injective same)
  simp only [stopFile, portOfFile_file, if_neg texts]

theorem append_stopEntries (outcome : Outcome) (entry : Entry) (rest : List Entry) :
    outcome.append (Table.stopEntries processes name (entry :: rest)) =
      (outcome.append (Table.stopEntry processes name entry)).append (Table.stopEntries processes name rest) := by
  simp only [Outcome.append, Table.stopEntries, List.flatMap_cons, List.append_assoc]

theorem append_nothing (outcome : Outcome) : outcome.append {} = outcome := by
  simp only [Outcome.append, List.append_nil]

/-- The files that are still to come, in a stop for a whole sandbox. -/
theorem foldl_files (name : SandboxName) (entries : List Entry) (outcome : Outcome) (distinct : entries.NodupKeys)
    (table : Table) (held : ∀ entry ∈ entries, table.lookup entry.1 = some entry.2) :
    (entries.map Entry.file).foldl (stopFile processes name.text) (outcome, table.files) =
      (outcome.append (Table.stopEntries processes name entries),
        Table.files (without name entries.keys table)) := by
  induction entries generalizing outcome table with
  | nil =>
    rw [List.keys_nil, without_nil]
    exact congrArg (·, table.files) (append_nothing outcome).symm
  | cons entry rest ih =>
    obtain ⟨⟨other, port⟩, tracked⟩ := entry
    obtain ⟨new, distinct⟩ := List.nodupKeys_cons.1 distinct
    have later := fun entry member => held entry (List.mem_cons_of_mem _ member)
    rw [List.map_cons, List.foldl_cons, List.keys_cons, append_stopEntries, Entry.file, Table.stopEntry]
    by_cases own : other = name
    · subst own
      rw [stopFile_own outcome (held _ List.mem_cons_self), if_pos rfl, without_own]
      refine ih _ distinct _ ?_
      intro entry member
      have apart : entry.1 ≠ (other, port) := by
        intro same
        have inside : entry.1 ∈ rest.keys := List.mem_map_of_mem member
        exact new (same ▸ inside)
      rw [lookup_retain, later entry member, Option.filter_some, if_pos (decide_eq_true apart)]
    · rw [stopFile_other outcome own, if_neg own, append_nothing, without_other own]
      exact ih outcome distinct table later

theorem keys_files : table.files.keys = table.entries.map Entry.file := by
  simp [AList.keys, List.keys, Table.files, rekey, Entry.file]

/-- A reading of the files goes through the entries in some order. -/
theorem ReadDir.entries (reading : ReadDir) (table : Table) :
    ∃ entries : List Entry, reading.list table.files = entries.map Entry.file ∧ entries.Perm table.entries := by
  have whole := reading.whole table.files
  rw [keys_files] at whole
  have split := congrFun (congrFun (List.eq_map_comp_perm Entry.file) (reading.list table.files)) table.entries
  exact split.mpr whole

theorem stopForwardsForSandbox_files :
    (stopForwardsForSandbox reading processes name.text table.files).1.Same (table.stopAll processes name).1 ∧
      (stopForwardsForSandbox reading processes name.text table.files).2 =
        (table.stopAll processes name).2.files := by
  obtain ⟨entries, listed, order⟩ := reading.entries table
  have whole : without name entries.keys table = retain (fun key _ => key.1 ≠ name) table := by
    apply AList.ext
    simp only [without, retain]
    refine List.filter_congr ?_
    intro entry member
    have listed : entry.1 ∈ entries.keys := List.mem_map_of_mem (order.mem_iff.mpr member)
    simp [listed]
  have distinct : entries.NodupKeys := (List.perm_nodupKeys order).mpr table.nodupKeys
  have all := @foldl_files processes name entries {} distinct table fun _ member =>
    lookup_of_mem (order.mem_iff.mp member)
  rw [whole] at all
  rw [stopForwardsForSandbox, listed, all]
  refine ⟨⟨?_, ?_⟩, rfl⟩
  · exact order.flatMap_right _
  · exact order.flatMap_right _

theorem rsplitOnce_digits {separator : Char} (apart : ¬('0' ≤ separator ∧ separator ≤ '9')) (lead : List Char)
    (value : Nat) : rsplitOnce separator (lead ++ separator :: Nat.toDigits 10 value) =
      some (lead, Nat.toDigits 10 value) := by
  have outside : separator ∉ (Nat.toDigits 10 value).reverse := by
    rw [List.mem_reverse]
    exact notMem_toDigits apart
  rw [rsplitOnce, List.reverse_append, List.reverse_cons, List.append_assoc, List.singleton_append,
    splitOnce_append outside, Option.map_some]
  simp only [List.reverse_reverse]

theorem forwardInfo_files {entry : Entry} (member : entry ∈ table.entries) :
    forwardInfo processes table.files entry.file = some (Table.info processes entry) := by
  obtain ⟨⟨name, port⟩, tracked⟩ := entry
  have dash : ¬('0' ≤ '-' ∧ '-' ≤ '9') := by decide
  have stem : stripSuffixText pidSuffix (forwardPidFile name.text port) =
      some (name.text ++ '-' :: Nat.toDigits 10 port.toNat) := by
    rw [stripSuffixText_eq_some, forwardPidFile, List.append_assoc, List.cons_append]
  simp only [Entry.file, forwardInfo, stem, bind, Option.bind_some, rsplitOnce_digits dash, parsePort_digits,
    readForwardPid_files, lookup_of_mem member, Option.map_some]
  rfl

theorem before_iff {first second : ForwardInfo} : first.before second = true ↔
    first.sandbox < second.sandbox ∨ first.sandbox = second.sandbox ∧ first.port ≤ second.port := by
  simp [ForwardInfo.before]

theorem before_trans (first second third : ForwardInfo) (one : first.before second = true)
    (two : second.before third = true) : first.before third = true := by
  rw [before_iff] at one two ⊢
  rcases one with less | ⟨same, ports⟩
  · rcases two with lessToo | ⟨sameToo, _⟩
    · exact .inl (lt_trans less lessToo)
    · exact .inl (sameToo ▸ less)
  · rcases two with lessToo | ⟨sameToo, portsToo⟩
    · exact .inl (same ▸ lessToo)
    · exact .inr ⟨same.trans sameToo, UInt16.le_trans ports portsToo⟩

theorem before_total (first second : ForwardInfo) : (first.before second || second.before first) = true := by
  rw [Bool.or_eq_true, before_iff, before_iff]
  rcases lt_trichotomy first.sandbox second.sandbox with less | same | greater
  · exact .inl (.inl less)
  · rcases UInt16.le_total first.port second.port with ports | ports
    · exact .inl (.inr ⟨same, ports⟩)
    · exact .inr (.inr ⟨same.symm, ports⟩)
  · exact .inr (.inl greater)

/-- Two that come before each other have the same sandbox and port. -/
theorem key_of_before {first second : ForwardInfo} (one : first.before second = true)
    (two : second.before first = true) : first.sandbox = second.sandbox ∧ first.port = second.port := by
  rw [before_iff] at one two
  rcases one with less | ⟨same, ports⟩
  · rcases two with greater | ⟨same, _⟩
    · exact absurd greater (lt_asymm less)
    · exact absurd same.symm (ne_of_lt less)
  · rcases two with greater | ⟨_, portsToo⟩
    · exact absurd same.symm (ne_of_lt greater)
    · exact ⟨same, UInt16.le_antisymm ports portsToo⟩

theorem listForwards_files : listForwards reading processes table.files = table.list processes := by
  obtain ⟨entries, listed, order⟩ := reading.entries table
  have infos : (entries.map Entry.file).filterMap (forwardInfo processes table.files) =
      entries.map (Table.info processes) := by
    rw [List.filterMap_map, ← List.filterMap_eq_map]
    exact List.filterMap_congr fun entry member => forwardInfo_files (order.mem_iff.mp member)
  rw [listForwards, Table.list, listed, infos]
  refine List.Perm.eq_of_pairwise ?_ (List.pairwise_mergeSort before_trans before_total _)
    (List.pairwise_mergeSort before_trans before_total _) ?_
  · intro first second inFirst inSecond one two
    obtain ⟨entry, member, rfl⟩ := List.mem_map.mp (List.mem_mergeSort.mp inFirst)
    obtain ⟨other, memberToo, rfl⟩ := List.mem_map.mp (List.mem_mergeSort.mp inSecond)
    obtain ⟨texts, ports⟩ := key_of_before one two
    have keys : entry.1 = other.1 := Prod.ext (SandboxName.text_injective texts) ports
    have values := lookup_of_mem (order.mem_iff.mp member)
    rw [keys, lookup_of_mem memberToo, Option.some.injEq] at values
    rw [Sigma.ext keys (heq_of_eq values.symm)]
  · exact (List.mergeSort_perm _ _).trans ((order.map _).trans (List.mergeSort_perm _ _).symm)

theorem stripPort_file (name : List Char) (other port : UInt16) :
    stripSuffixText ('-' :: (Nat.toDigits 10 port.toNat ++ pidSuffix)) (forwardPidFile name other) =
      if other = port then some name else none := by
  split
  · rename_i same
    rw [same]
    exact stripSuffixText_eq_some.2 rfl
  · rename_i apart
    rw [Option.eq_none_iff_forall_ne_some]
    intro rest found
    have same : forwardPidFile name other = forwardPidFile rest port := stripSuffixText_eq_some.1 found
    exact apart (forwardPidFile_unique same).2

theorem mem_of_entry {entry : Entry} (member : entry ∈ table.entries) : entry.1 ∈ table :=
  AList.mem_keys.mpr (List.mem_map_of_mem member)

theorem findForwardByPort_files : table.Found port (findForwardByPort reading port table.files) := by
  obtain ⟨entries, listed, order⟩ := reading.entries table
  rw [findForwardByPort, listed, List.findSome?_map]
  constructor
  · intro text found
    obtain ⟨entry, member, fits⟩ := List.exists_of_findSome?_eq_some found
    rw [Function.comp_apply, Entry.file, stripPort_file, Option.filter_eq_some_iff] at fits
    obtain ⟨cut, filled⟩ := fits
    split at cut
    · rename_i same
      cases cut
      have inside := mem_of_entry (order.mem_iff.mp member)
      refine ⟨?_, entry.1.1, rfl, ?_⟩
      · simpa using filled
      · rw [← same]
        exact inside
    · cases cut
  · intro missing name inside
    obtain ⟨tracked, held⟩ := Option.isSome_iff_exists.mp (AList.lookup_isSome.mpr inside)
    have member : (⟨(name, port), tracked⟩ : Entry) ∈ entries :=
      order.mem_iff.mpr (AList.mem_lookup_iff.mp held)
    have unfit := List.findSome?_eq_none_iff.mp missing _ member
    rw [Function.comp_apply, Entry.file, stripPort_file, if_pos rfl, Option.filter_eq_none_iff] at unfit
    simpa using unfit name.text rfl

end Refines

/-! Runs of the commands. -/

/-- Each reading of the directory may have an order of its own. -/
inductive ForwardEvent where
  | start (name : SandboxName) (port : UInt16) (tracked : Tracked)
  | stop (processes : Processes) (name : SandboxName) (port : UInt16)
  | stopAll (reading : ReadDir) (processes : Processes) (name : SandboxName)

/-- The directory, and what each command has done. -/
def stepFiles (state : Directory × List Outcome) : ForwardEvent → Directory × List Outcome
  | .start name port tracked =>
    (writeForwardPid name.text port tracked.pid tracked.sandboxId tracked.bindAddr state.1, state.2)
  | .stop processes name port =>
    let (outcome, dir) := stopForward processes name.text port state.1
    (dir, state.2 ++ [outcome])
  | .stopAll reading processes name =>
    let (outcome, dir) := stopForwardsForSandbox reading processes name.text state.1
    (dir, state.2 ++ [outcome])

/-- The same commands on a table by sandbox and port. -/
def stepTable (state : Table × List Outcome) : ForwardEvent → Table × List Outcome
  | .start name port tracked => (state.1.insert (name, port) tracked, state.2)
  | .stop processes name port =>
    let (outcome, table) := state.1.stop processes name port
    (table, state.2 ++ [outcome])
  | .stopAll _ processes name =>
    let (outcome, table) := state.1.stopAll processes name
    (table, state.2 ++ [outcome])

/-- The files of the table, and outcomes that are the same. -/
structure Tracks (state : Directory × List Outcome) (table : Table × List Outcome) : Prop where
  files : state.1 = table.1.files
  outcomes : List.Forall₂ Outcome.Same state.2 table.2

theorem Outcome.Same.refl (outcome : Outcome) : outcome.Same outcome := ⟨.rfl, .rfl⟩

theorem tracks_step {state : Directory × List Outcome} {table : Table × List Outcome} (tracks : Tracks state table)
    (event : ForwardEvent) : Tracks (stepFiles state event) (stepTable table event) := by
  obtain ⟨dir, outcomes⟩ := state
  have same : List.Forall₂ Outcome.Same outcomes table.2 := tracks.outcomes
  obtain rfl : dir = table.1.files := tracks.files
  cases event with
  | start name port tracked => exact ⟨writeForwardPid_files tracked, same⟩
  | stop processes name port =>
    simp only [stepFiles, stepTable, stopForward_files]
    exact ⟨rfl, List.rel_append same (.cons (.refl _) .nil)⟩
  | stopAll reading processes name =>
    obtain ⟨outcome, files⟩ := @stopForwardsForSandbox_files table.1 name processes reading
    exact ⟨files, List.rel_append same (.cons outcome .nil)⟩

theorem tracks_run {state : Directory × List Outcome} {table : Table × List Outcome} (tracks : Tracks state table)
    (events : List ForwardEvent) :
    Tracks (Machine.run stepFiles state events) (Machine.run stepTable table events) := by
  induction events generalizing state table with
  | nil => exact tracks
  | cons event rest ih =>
    rw [Machine.run_cons, Machine.run_cons]
    exact ih (tracks_step tracks event)

def filesAfter (events : List ForwardEvent) : Directory × List Outcome := Machine.run stepFiles (∅, []) events

def tableAfter (events : List ForwardEvent) : Table × List Outcome := Machine.run stepTable (∅, []) events

/-- Through every run, whatever the order in which the directory is read, the files are those of a table by sandbox and
port: what is read, listed, found by a port, stopped and killed is what the table has, and a sandbox is not taken for
another whose name goes on behind a dash. -/
theorem forwards_refine_table (events : List ForwardEvent) :
    List.Forall₂ Outcome.Same (filesAfter events).2 (tableAfter events).2 ∧
      (∀ name port, readForwardPid (SandboxName.text name) port (filesAfter events).1 =
        ((tableAfter events).1.lookup (name, port)).map Tracked.record) ∧
      (∀ reading processes, listForwards reading processes (filesAfter events).1 =
        (tableAfter events).1.list processes) ∧
      ∀ reading port, (tableAfter events).1.Found port (findForwardByPort reading port (filesAfter events).1) := by
  have tracks : Tracks (filesAfter events) (tableAfter events) := tracks_run ⟨rfl, .nil⟩ events
  rw [tracks.files]
  exact ⟨tracks.outcomes, fun _ _ => readForwardPid_files, fun _ _ => listForwards_files,
    fun _ _ => findForwardByPort_files⟩

/-! The specification of a forward, as the user gives it. -/

structure ForwardSpec where
  bindAddr : List Char
  port : UInt16
deriving DecidableEq

namespace ForwardSpec

def ofPort (bindAddr : List Char) (port : UInt16) : Except String ForwardSpec :=
  if port = 0 then .error "port must be between 1 and 65535" else .ok ⟨bindAddr, port⟩

/-- The last colon cuts, so that an address may have colons of its own. -/
def parse (text : List Char) : Except String ForwardSpec :=
  match (rsplitOnce ':' text).bind fun (addr, digits) => (parsePort digits).map fun port => (addr, port) with
  | some (addr, port) => ofPort addr port
  | none =>
    match parsePort text with
    | some port => ofPort defaultBindAddr port
    | none => .error ("invalid forward spec '" ++ String.ofList text ++ "': expected [bind_address:]port")

/-- `Display`. -/
def display (spec : ForwardSpec) : List Char :=
  if spec.bindAddr = defaultBindAddr then Nat.toDigits 10 spec.port.toNat
  else spec.bindAddr ++ ':' :: Nat.toDigits 10 spec.port.toNat

theorem parse_display (spec : ForwardSpec) : parse spec.display = ofPort spec.bindAddr spec.port := by
  have colon : ¬('0' ≤ ':' ∧ ':' ≤ '9') := by decide
  unfold display
  split
  · rename_i same
    have whole : rsplitOnce ':' (Nat.toDigits 10 spec.port.toNat) = none := by
      rw [rsplitOnce, splitOnce_of_notMem (by rw [List.mem_reverse]; exact notMem_toDigits colon), Option.map_none]
    simp only [parse, whole, Option.bind_none, parsePort_digits, same]
  · simp only [parse, rsplitOnce_digits colon, Option.bind_some, parsePort_digits, Option.map_some]

theorem port_of_parse {text : List Char} {spec : ForwardSpec} (parsed : parse text = .ok spec) : spec.port ≠ 0 := by
  have checked : ∀ addr port, ofPort addr port = .ok spec → spec.port ≠ 0 := by
    intro addr port made
    unfold ofPort at made
    split at made
    · cases made
    · cases made
      assumption
  unfold parse at parsed
  split at parsed
  · exact checked _ _ parsed
  · split at parsed
    · exact checked _ _ parsed
    · cases parsed

/-- What can be parsed at all is read back from the way in which it is shown. -/
theorem parse_display_iff (spec : ForwardSpec) :
    parse spec.display = .ok spec ↔ ∃ text, parse text = .ok spec := by
  constructor
  · intro back
    exact ⟨spec.display, back⟩
  · intro parsable
    obtain ⟨text, parsed⟩ := parsable
    rw [parse_display, ofPort, if_neg (port_of_parse parsed)]

end ForwardSpec

end OpenShell.Core
