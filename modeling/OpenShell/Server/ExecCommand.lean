import OpenShell.Lib.Maps
import OpenShell.Lib.Shell
import OpenShell.Server.Providers

namespace OpenShell.Server.Exec

open OpenShell.Policy Shell

/-! The command line that a request for a remote command is turned into. -/

def maxExecCommandArgs : Nat := 1024

def maxExecArgLen : Nat := 32 * 1024

def maxExecWorkdirLen : Nat := 4096

def maxCommandStringLen : Nat := 256 * 1024

structure ExecSandboxRequest where
  sandboxId : String
  command : List String
  workdir : String := ""
  environment : StringMap String := ∅

def isValidEnvKey (key : String) : Bool :=
  match key.toList with
  | [] => false
  | first :: rest => (first = '_' || first.isAlpha) && rest.all fun byte => byte = '_' || byte.isAlphanum

def hasNull (value : String) : Bool := value.toList.any fun byte => byte = '\x00'

def hasLineBreak (value : String) : Bool := value.toList.any fun byte => byte = '\n' || byte = '\r'

def rejectControlChars (value fieldName : String) : Except Status Unit :=
  if hasNull value then .error (invalidArgument (fieldName ++ " contains null bytes"))
  else if hasLineBreak value then
    .error (invalidArgument (fieldName ++ " contains newline or carriage return characters"))
  else .ok ()

/-- A value over its limit of bytes, or with a control character. -/
def validateExecValue (value fieldName : String) (limit : Nat) : Except Status Unit :=
  if limit < value.utf8ByteSize then
    .error (invalidArgument (fieldName ++ " exceeds " ++ toString limit ++ " byte limit"))
  else rejectControlChars value fieldName

def validateExecRequestFields (request : ExecSandboxRequest) : Except Status Unit := do
  if maxExecCommandArgs < request.command.length then
    throw (invalidArgument ("command array exceeds " ++ toString maxExecCommandArgs ++ " argument limit"))
  request.command.zipIdx.forM fun arg =>
    validateExecValue arg.1 ("command argument " ++ toString arg.2) maxExecArgLen
  request.environment.entries.forM fun entry =>
    validateExecValue entry.2 ("environment value for '" ++ entry.1 ++ "'") maxExecArgLen
  if request.workdir ≠ "" then validateExecValue request.workdir "workdir" maxExecWorkdirLen

/-- The checks of `handle_exec_sandbox` on the request itself. -/
def checkExecRequest (request : ExecSandboxRequest) : Except Status Unit :=
  if request.sandboxId = "" then .error (invalidArgument "sandbox_id is required")
  else if request.command.isEmpty then .error (invalidArgument "command is required")
  else if request.environment.entries.any fun entry => !isValidEnvKey entry.1 then
    .error (invalidArgument "environment keys must match ^[A-Za-z_][A-Za-z0-9_]*$")
  else validateExecRequestFields request

def isSafe (byte : Char) : Bool := byte.isAlphanum || byte = '.' || byte = '/' || byte = '-' || byte = '_'

/-- `value.replace('\'', "'\"'\"'")`. -/
def escapeQuotes (value : List Char) : List Char :=
  value.flatMap fun c =>
    if c = singleQuote then [singleQuote, doubleQuote, singleQuote, doubleQuote, singleQuote] else [c]

def shellEscape (value : String) : Except String String :=
  if hasNull value then .error "value contains null bytes"
  else if hasLineBreak value then .error "value contains newline or carriage return"
  else if value = "" then .ok (String.ofList [singleQuote, singleQuote])
  else if value.toList.all isSafe then .ok value
  else .ok (String.ofList (singleQuote :: escapeQuotes value.toList ++ [singleQuote]))

def environmentPart (entry : Σ _ : String, String) : Except String String := do
  let escaped ← shellEscape entry.2
  return entry.1 ++ "=" ++ escaped

def inWorkdir (workdir command : String) : Except String String :=
  if workdir = "" then .ok command
  else do
    let escaped ← shellEscape workdir
    return "cd " ++ escaped ++ " && " ++ command

def buildRemoteExecCommand (request : ExecSandboxRequest) : Except String String := do
  let assignments ← (SortedMap.sortEntries request.environment).mapM environmentPart
  let arguments ← request.command.mapM shellEscape
  let result ← inWorkdir request.workdir (" ".intercalate (assignments ++ arguments))
  if maxCommandStringLen < result.utf8ByteSize then
    throw ("assembled command string exceeds " ++ toString maxCommandStringLen ++ " byte limit")
  return result

/-- The command with its assignments, sorted by their names. -/
def ExecSandboxRequest.mainCommand (request : ExecSandboxRequest) : SimpleCommand :=
  ⟨(SortedMap.sortEntries request.environment).map fun entry => (entry.1.toList, entry.2.toList),
    request.command.map String.toList⟩

/-- What the request asks for: the workdir if there is one, then the command. -/
def ExecSandboxRequest.commands (request : ExecSandboxRequest) : List SimpleCommand :=
  (if request.workdir = "" then [] else [⟨[], ["cd".toList, request.workdir.toList]⟩]) ++ [request.mainCommand]

/-! What an escaped value stands for. -/

def escapedWord (value : List Char) : Word :=
  if value ≠ [] ∧ value.all isSafe = true then value.map .plain else quotedRest [] value

theorem ordinary_of_safe {c : Char} (safe : isSafe c = true) : ordinary c = true := by
  by_contra unusual
  have listed : c ∈ [' ', '\t', '&', singleQuote, doubleQuote, backslash] ++ special := by
    simp only [ordinary, isBlank, Bool.not_eq_true, Bool.not_eq_false', Bool.or_eq_true, decide_eq_true_eq,
      List.contains_iff_mem] at unusual
    simp only [List.mem_append, List.mem_cons, List.not_mem_nil, or_false]
    tauto
  have none : ([' ', '\t', '&', singleQuote, doubleQuote, backslash] ++ special).all fun c => !isSafe c := by decide
  have apart := List.all_eq_true.mp none c listed
  rw [safe] at apart
  cases apart

theorem shellEscape_denotes {value escaped : String} (succeeded : shellEscape value = .ok escaped) :
    Denotes escaped.toList (escapedWord value.toList) := by
  unfold shellEscape at succeeded
  unfold escapedWord
  split at succeeded
  · cases succeeded
  · split at succeeded
    · cases succeeded
    · split at succeeded
      · rename_i empty
        cases succeeded
        rw [empty, if_neg (by simp), String.toList_ofList]
        exact denotes_quote []
      · rename_i filled
        have chars : value.toList ≠ [] := by simpa using filled
        split at succeeded
        · rename_i safe
          cases succeeded
          rw [if_pos ⟨chars, safe⟩]
          exact denotes_ordinary chars fun c member => ordinary_of_safe (List.all_eq_true.mp safe c member)
        · rename_i unusual
          cases succeeded
          rw [if_neg fun both => unusual both.2, String.toList_ofList]
          exact denotes_quote value.toList

theorem removeQuotes_escapedWord (value : List Char) : removeQuotes (escapedWord value) = value := by
  unfold escapedWord
  split
  · exact removeQuotes_plain value
  · rw [removeQuotes_quotedRest, List.nil_append]

theorem assignment_escapedWord (value : List Char) : assignment? (escapedWord value) = none := by
  unfold escapedWord
  split
  · rename_i plain
    apply assignment_plain
    intro member
    exact absurd (List.all_eq_true.mp plain.2 _ member) (by decide)
  · obtain ⟨first, rest, same⟩ := quotedRest_head [] value
    rw [same]
    exact assignment_quoted

theorem plainText_escapedWord (value : List Char) :
    plainText (escapedWord value) = if value ≠ [] ∧ value.all isSafe = true then some value else none := by
  unfold escapedWord
  split
  · exact plainText_plain value
  · obtain ⟨first, rest, same⟩ := quotedRest_head [] value
    rw [same, plainText]

def assignmentWord (entry : Σ _ : String, String) : Word :=
  entry.1.toList.map .plain ++ .plain '=' :: escapedWord entry.2.toList

theorem isName_of_key {key : String} (valid : isValidEnvKey key = true) : isName key.toList = true := by
  unfold isValidEnvKey at valid
  unfold isName
  exact valid

theorem name_safe {name : List Char} (named : isName name = true) : name ≠ [] ∧ ∀ c ∈ name, isSafe c = true := by
  cases name with
  | nil => cases named
  | cons first rest =>
    refine ⟨List.cons_ne_nil first rest, fun c member => ?_⟩
    simp only [isName, Bool.and_eq_true, Bool.or_eq_true, decide_eq_true_eq, List.all_eq_true] at named
    have known : c = '_' ∨ c.isAlphanum = true := by
      rcases List.mem_cons.mp member with rfl | later
      · rcases named.1 with underscore | alpha
        · exact .inl underscore
        · exact .inr (by simp [Char.isAlphanum, alpha])
      · exact named.2 c later
    rcases known with rfl | alphanumeric
    · decide
    · simp [isSafe, alphanumeric]

theorem name_unequal {name : List Char} (named : isName name = true) : '=' ∉ name := by
  intro member
  exact absurd ((name_safe named).2 _ member) (by decide)

theorem environmentPart_denotes {entry : Σ _ : String, String} {part : String}
    (named : isName entry.1.toList = true) (succeeded : environmentPart entry = .ok part) :
    Denotes part.toList (assignmentWord entry) := by
  obtain ⟨escaped, escapes, same⟩ := Results.ok_of_bind succeeded
  cases same
  obtain ⟨filled, safe⟩ := name_safe named
  have key := denotes_ordinary filled fun c member => ordinary_of_safe (safe c member)
  have value := (spells_char (c := '=') (by decide)).append (shellEscape_denotes escapes).spells
  rw [String.toList_append, String.toList_append, List.append_assoc]
  exact key.append value

theorem assignment_assignmentWord {entry : Σ _ : String, String} (named : isName entry.1.toList = true) :
    assignment? (assignmentWord entry) = some (entry.1.toList, entry.2.toList) := by
  rw [assignmentWord, assignment_named named (name_unequal named), removeQuotes_escapedWord]

/-- A word that assigns has an equals sign, and a reserved word has none. -/
theorem plainText_assignmentWord {entry : Σ _ : String, String} {text : List Char}
    (plain : plainText (assignmentWord entry) = some text) : '=' ∈ text := by
  unfold assignmentWord at plain
  generalize entry.1.toList = name at plain
  induction name generalizing text with
  | nil =>
    rw [List.map_nil, List.nil_append, plainText] at plain
    obtain ⟨rest, -, rfl⟩ := Option.map_eq_some_iff.mp plain
    exact List.mem_cons_self
  | cons c name ih =>
    rw [List.map_cons, List.cons_append, plainText] at plain
    obtain ⟨rest, later, rfl⟩ := Option.map_eq_some_iff.mp plain
    exact List.mem_cons_of_mem c (ih later)

/-! The whole command line. -/

/-- The command is a reserved word without a character to quote, and nothing stands before it. -/
def ReservedFirst (reserved : List (List Char)) (request : ExecSandboxRequest) : Prop :=
  request.environment.entries = [] ∧
    ∃ first, request.command.head? = some first ∧ first.toList.all isSafe = true ∧ first.toList ∈ reserved

section Read

variable {reserved also : List (List Char)} {request : ExecSandboxRequest} {text : String}

theorem readSimple_assigned {entry : Σ _ : String, String} {entries : List (Σ _ : String, String)} {first : String}
    {rest : List String} (unequal : ∀ word ∈ reserved, '=' ∉ word)
    (named : ∀ other ∈ entry :: entries, isName other.1.toList = true) :
    readSimple reserved ((entry :: entries).map assignmentWord ++
        (first :: rest).map fun arg => escapedWord arg.toList) =
      some ⟨(entry :: entries).map fun other => (other.1.toList, other.2.toList), (first :: rest).map String.toList⟩ := by
  have assigned : List.Forall₂ (fun word assignment => assignment? word = some assignment)
      ((entry :: entries).map assignmentWord)
      ((entry :: entries).map fun other => (other.1.toList, other.2.toList)) := by
    rw [List.forall₂_map_left_iff, List.forall₂_map_right_iff, List.forall₂_same]
    exact fun other member => assignment_assignmentWord (named other member)
  have split := splitAssignments_append assigned (assignment_escapedWord first.toList)
    (rest.map fun arg => escapedWord arg.toList)
  have unreserved : (plainText (assignmentWord entry)).any (reserved.contains ·) = false := by
    cases plain : plainText (assignmentWord entry) with
    | none => rfl
    | some word =>
      rw [Option.any_some, List.contains_eq_mem, decide_eq_false_iff_not]
      exact fun member => unequal word member (plainText_assignmentWord plain)
  rw [List.map_cons, List.cons_append] at split ⊢
  rw [readSimple, if_neg (by rw [unreserved]; decide)]
  rw [List.map_cons (l := rest), split]
  simp only [List.map_cons, List.map_map, Function.comp_def, removeQuotes_escapedWord]

theorem readSimple_unassigned {first : String} {rest : List String} (filled : [] ∉ reserved) :
    readSimple reserved ((first :: rest).map fun arg => escapedWord arg.toList) =
      if first.toList.all isSafe = true ∧ first.toList ∈ reserved then none
      else some ⟨[], (first :: rest).map String.toList⟩ := by
  have split := splitAssignments_append .nil (assignment_escapedWord first.toList)
    (rest.map fun arg => escapedWord arg.toList)
  rw [List.nil_append] at split
  rw [List.map_cons, readSimple, plainText_escapedWord, split]
  have decides : (Option.any (fun word => reserved.contains word)
      (if first.toList ≠ [] ∧ first.toList.all isSafe = true then some first.toList else none) = true) ↔
      first.toList.all isSafe = true ∧ first.toList ∈ reserved := by
    by_cases plain : first.toList ≠ [] ∧ first.toList.all isSafe = true
    · rw [if_pos plain, Option.any_some, List.contains_iff_mem]
      exact (and_iff_right plain.2).symm
    · rw [if_neg plain]
      refine iff_of_false (by simp) fun both => plain ⟨fun empty => filled ?_, both.1⟩
      rw [← empty]
      exact both.2
  rw [if_congr decides rfl rfl]
  simp only [List.map_cons, List.map_map, Function.comp_def, removeQuotes_escapedWord]

theorem denotes_of_mapM {α : Type} {write : α → Except String String} {word : α → Word} {items : List α}
    {parts : List String} (ran : items.mapM write = .ok parts)
    (each : ∀ item ∈ items, ∀ part, write item = .ok part → Denotes part.toList (word item)) :
    List.Forall₂ Denotes (parts.map String.toList) (items.map word) := by
  have wrote := Results.forall₂_of_mapM ran
  clear ran
  induction wrote with
  | nil => exact .nil
  | cons here _ ih =>
    exact .cons (each _ List.mem_cons_self _ here) (ih fun item member => each item (List.mem_cons_of_mem _ member))

theorem inWorkdir_ok {workdir command result : String} (succeeded : inWorkdir workdir command = .ok result) :
    (workdir = "" ∧ result = command) ∨ (workdir ≠ "" ∧ ∃ escaped, shellEscape workdir = .ok escaped ∧
      result.toList = joined ["cd".toList, escaped.toList] ++ " && ".toList ++ command.toList) := by
  unfold inWorkdir at succeeded
  split at succeeded
  · rename_i empty
    exact .inl ⟨empty, (Except.ok.inj succeeded).symm⟩
  · rename_i given
    obtain ⟨escaped, escapes, same⟩ := Results.ok_of_bind succeeded
    cases same
    refine .inr ⟨given, escaped, escapes, ?_⟩
    have blank : "cd ".toList = "cd".toList ++ [' '] := by decide
    rw [joined, List.intercalate_cons_cons, List.intercalate_singleton, ← blank]
    simp only [String.toList_append]

theorem buildRemoteExecCommand_ok (succeeded : buildRemoteExecCommand request = .ok text) :
    ∃ assignments arguments, (SortedMap.sortEntries request.environment).mapM environmentPart = .ok assignments ∧
      request.command.mapM shellEscape = .ok arguments ∧
      inWorkdir request.workdir (" ".intercalate (assignments ++ arguments)) = .ok text := by
  obtain ⟨assignments, assigned, succeeded⟩ := Results.ok_of_bind succeeded
  obtain ⟨arguments, escaped, succeeded⟩ := Results.ok_of_bind succeeded
  obtain ⟨result, placed, succeeded⟩ := Results.ok_of_bind succeeded
  split at succeeded
  · cases succeeded
  · cases succeeded
    exact ⟨assignments, arguments, assigned, escaped, placed⟩

theorem checkExecRequest_ok (accepted : checkExecRequest request = .ok ()) :
    request.command ≠ [] ∧ ∀ entry ∈ SortedMap.sortEntries request.environment, isName entry.1.toList = true := by
  unfold checkExecRequest at accepted
  split at accepted
  · cases accepted
  · split at accepted
    · cases accepted
    · rename_i filled
      split at accepted
      · cases accepted
      · rename_i valid
        refine ⟨fun empty => filled (List.isEmpty_iff.mpr empty), fun entry member => isName_of_key ?_⟩
        by_contra invalid
        apply valid
        rw [List.any_eq_true]
        exact ⟨entry, (SortedMap.sortEntries_perm _).mem_iff.mp member, by simp [invalid]⟩

theorem reserved_words (optional : ∀ word ∈ also, word ∈ optionalWords) :
    ∀ word ∈ reservedWords ++ also, word ≠ [] ∧ '=' ∉ word ∧ word ≠ "cd".toList := by
  have known : ∀ word ∈ reservedWords ++ optionalWords, word ≠ [] ∧ '=' ∉ word ∧ word ≠ "cd".toList := by decide
  intro word member
  apply known
  rcases List.mem_append.mp member with always | sometimes
  · exact List.mem_append_left _ always
  · exact List.mem_append_right _ (optional word sometimes)

/-- The words of the command with its assignments. -/
def ExecSandboxRequest.commandWords (request : ExecSandboxRequest) : List Word :=
  (SortedMap.sortEntries request.environment).map assignmentWord ++
    request.command.map fun arg => escapedWord arg.toList

theorem readSimple_commandWords (optional : ∀ word ∈ also, word ∈ optionalWords) (filled : request.command ≠ [])
    (named : ∀ entry ∈ SortedMap.sortEntries request.environment, isName entry.1.toList = true) :
    readSimple (reservedWords ++ also) request.commandWords = some request.mainCommand ↔
      ¬ReservedFirst (reservedWords ++ also) request := by
  have words := reserved_words optional
  obtain ⟨first, rest, given⟩ := List.exists_cons_of_ne_nil filled
  unfold ExecSandboxRequest.commandWords ExecSandboxRequest.mainCommand ReservedFirst
  rw [given]
  have sameLength := (SortedMap.sortEntries_perm request.environment).length_eq
  cases entries : SortedMap.sortEntries request.environment with
  | nil =>
    have bare : request.environment.entries = [] := by
      rw [entries] at sameLength
      exact List.length_eq_zero_iff.mp sameLength.symm
    rw [List.map_nil, List.nil_append, readSimple_unassigned fun member => (words _ member).1 rfl, List.map_nil, bare]
    simp only [List.head?_cons, Option.some.injEq, exists_eq_left', true_and]
    split
    · rename_i reserved
      exact iff_of_false (by simp) (not_not.mpr reserved)
    · rename_i free
      exact iff_of_true rfl free
  | cons entry entries' =>
    have unbare : request.environment.entries ≠ [] := by
      intro bare
      rw [entries, bare] at sameLength
      cases sameLength
    rw [entries] at named
    rw [readSimple_assigned (fun word member => (words word member).2.1) named]
    exact iff_of_true rfl fun both => unbare both.1

theorem denotes_command {assignments arguments : List String}
    (assigned : (SortedMap.sortEntries request.environment).mapM environmentPart = .ok assignments)
    (escaped : request.command.mapM shellEscape = .ok arguments)
    (named : ∀ entry ∈ SortedMap.sortEntries request.environment, isName entry.1.toList = true) :
    List.Forall₂ Denotes ((assignments ++ arguments).map String.toList) request.commandWords := by
  rw [List.map_append]
  apply List.rel_append
  · exact denotes_of_mapM assigned fun entry member part wrote => environmentPart_denotes (named entry member) wrote
  · exact denotes_of_mapM escaped fun arg _ part wrote => shellEscape_denotes wrote

theorem denotes_cd {workdir escaped : String} (escapes : shellEscape workdir = .ok escaped) :
    List.Forall₂ Denotes ["cd".toList, escaped.toList] (["cd", workdir].map fun arg => escapedWord arg.toList) := by
  have cd : shellEscape "cd" = .ok "cd" := by decide
  exact .cons (shellEscape_denotes cd) (.cons (shellEscape_denotes escapes) .nil)

/-- The shell reads the command line as it is asked for, unless the command is a reserved word of characters that
    are not quoted, and nothing stands before it. -/
theorem exec_reads_argv_iff (optional : ∀ word ∈ also, word ∈ optionalWords)
    (accepted : checkExecRequest request = .ok ()) (built : buildRemoteExecCommand request = .ok text) :
    read (reservedWords ++ also) text.toList = some request.commands ↔
      ¬ReservedFirst (reservedWords ++ also) request := by
  obtain ⟨filled, named⟩ := checkExecRequest_ok accepted
  obtain ⟨assignments, arguments, assigned, escaped, placed⟩ := buildRemoteExecCommand_ok built
  have denoted := denotes_command assigned escaped named
  have line : (" ".intercalate (assignments ++ arguments)).toList =
      joined ((assignments ++ arguments).map String.toList) := String.toList_intercalate
  rw [← readSimple_commandWords optional filled named]
  rcases inWorkdir_ok placed with ⟨empty, rfl⟩ | ⟨given, workdir, escapes, same⟩
  · rw [line, read_joined denoted, ExecSandboxRequest.commands, if_pos empty, List.nil_append]
    cases found : readSimple (reservedWords ++ also) request.commandWords with
    | none => simp
    | some command => simp
  · have cd : readSimple (reservedWords ++ also) (["cd", request.workdir].map fun arg => escapedWord arg.toList) =
        some ⟨[], ["cd".toList, request.workdir.toList]⟩ := by
      rw [readSimple_unassigned fun member => (reserved_words optional _ member).1 rfl,
        if_neg fun both => (reserved_words optional _ both.2).2.2 rfl]
      rfl
    rw [same, line, read_and (denotes_cd escapes) denoted, cd, Option.bind_some, ExecSandboxRequest.commands,
      if_neg given]
    cases found : readSimple (reservedWords ++ also) request.commandWords with
    | none => simp
    | some command => simp

end Read

def echoRequest : ExecSandboxRequest := { sandboxId := "sb", command := ["echo", "it's"], workdir := "/tmp" }

theorem echoRequest_read :
    read (reservedWords ++ []) "cd /tmp && echo 'it'\"'\"'s'".toList = some echoRequest.commands := by
  have accepted : checkExecRequest echoRequest = .ok () := by decide
  have built : buildRemoteExecCommand echoRequest = .ok "cd /tmp && echo 'it'\"'\"'s'" := by
    have unset : SortedMap.sortEntries echoRequest.environment = [] := List.mergeSort_nil
    rw [buildRemoteExecCommand, unset]
    decide
  refine (exec_reads_argv_iff (by simp) accepted built).mpr fun both => ?_
  obtain ⟨-, first, same, -, reserved⟩ := both
  cases same
  exact absurd reserved (by decide)

/-- The command `if` is left without quotes. -/
theorem reservedCommand_misread : ¬∀ (request : ExecSandboxRequest) (text : String),
    checkExecRequest request = .ok () → buildRemoteExecCommand request = .ok text →
    read reservedWords text.toList = some request.commands := by
  intro reads
  have misread := reads { sandboxId := "sb", command := ["if"] } "if" (by decide) (by
    have unset : SortedMap.sortEntries (∅ : StringMap String) = [] := List.mergeSort_nil
    rw [buildRemoteExecCommand, unset]
    decide)
  cases misread

end OpenShell.Server.Exec
