import Mathlib.Data.List.Basic

namespace Shell

/-! How a POSIX shell reads a list of simple commands that are joined by `&&`: token recognition, reserved words,
assignments and quote removal. What it would expand, redirect or group is not read. -/

/-- A part of a word: a character without quotes, or what stood between quotes. -/
inductive Piece where
  | plain (c : Char)
  | quoted (content : List Char)
deriving DecidableEq

abbrev Word : Type := List Piece

inductive Token where
  | word (word : Word)
  | and
deriving DecidableEq

/-- How far the recognition of a token has come. -/
inductive Mode where
  | between
  | ampersand
  | word (word : Word)
  | single (word : Word) (content : List Char)
  | double (word : Word) (content : List Char)
  | escaped (word : Word)

abbrev singleQuote : Char := '\x27'

abbrev doubleQuote : Char := '\x22'

abbrev backslash : Char := '\x5c'

abbrev backquote : Char := '\x60'

def isBlank (c : Char) : Bool := c = ' ' || c = '\t'

/-- The characters that make an expansion, a pattern, a comment or another operator. -/
def special : List Char := ['$', backquote, '*', '?', '[', '~', '#', '|', ';', '<', '>', '(', ')', '\n']

/-- The next character of a word. -/
def feed (word : Word) (c : Char) : Option Mode :=
  if c = singleQuote then some (.single word [])
  else if c = doubleQuote then some (.double word [])
  else if c = backslash then some (.escaped word)
  else if c ∈ special then none
  else some (.word (word ++ [.plain c]))

def lex : Mode → List Char → Option (List Token)
  | .between, [] => some []
  | .word word, [] => some [.word word]
  | .ampersand, [] | .single _ _, [] | .double _ _, [] | .escaped _, [] => none
  | .between, c :: rest =>
    if isBlank c then lex .between rest
    else if c = '&' then lex .ampersand rest
    else
      match feed [] c with
      | none => none
      | some mode => lex mode rest
  | .ampersand, c :: rest => if c = '&' then (lex .between rest).map (.and :: ·) else none
  | .word word, c :: rest =>
    if isBlank c then (lex .between rest).map (.word word :: ·)
    else if c = '&' then (lex .ampersand rest).map (.word word :: ·)
    else
      match feed word c with
      | none => none
      | some mode => lex mode rest
  | .single word content, c :: rest =>
    if c = singleQuote then lex (.word (word ++ [.quoted content])) rest else lex (.single word (content ++ [c])) rest
  | .double word content, c :: rest =>
    if c = doubleQuote then lex (.word (word ++ [.quoted content])) rest
    else if c = '$' ∨ c = backquote ∨ c = backslash then none
    else lex (.double word (content ++ [c])) rest
  | .escaped word, c :: rest => if c = '\n' then none else lex (.word (word ++ [.quoted [c]])) rest

/-! Words. -/

def Piece.text : Piece → List Char
  | .plain c => [c]
  | .quoted content => content

/-- Quote removal. -/
def removeQuotes (word : Word) : List Char := word.flatMap Piece.text

/-- The text of a word without quotes. -/
def plainText : Word → Option (List Char)
  | [] => some []
  | .plain c :: rest => (plainText rest).map (c :: ·)
  | .quoted _ :: _ => none

def reservedWords : List (List Char) :=
  ["!".toList, "\x7b".toList, "\x7d".toList, "case".toList, "do".toList, "done".toList, "elif".toList, "else".toList,
    "esac".toList, "fi".toList, "for".toList, "if".toList, "in".toList, "then".toList, "until".toList, "while".toList]

/-- The words that a shell may reserve beside. -/
def optionalWords : List (List Char) :=
  ["[[".toList, "]]".toList, "function".toList, "namespace".toList, "select".toList, "time".toList]

def isName : List Char → Bool
  | [] => false
  | first :: rest => (first = '_' || first.isAlpha) && rest.all fun c => c = '_' || c.isAlphanum

/-- What stands before and behind the first equals sign, as long as nothing before it is quoted. -/
def splitEquals : Word → Option (List Char × Word)
  | [] => none
  | .plain c :: rest => if c = '=' then some ([], rest) else (splitEquals rest).map fun parts => (c :: parts.1, parts.2)
  | .quoted _ :: _ => none

def assignment? (word : Word) : Option (List Char × List Char) :=
  match splitEquals word with
  | none => none
  | some parts => if isName parts.1 then some (parts.1, removeQuotes parts.2) else none

/-! Commands. -/

structure SimpleCommand where
  assignments : List (List Char × List Char)
  words : List (List Char)
deriving DecidableEq

/-- The leading words that assign, and the other words. -/
def splitAssignments : List Word → List (List Char × List Char) × List Word
  | [] => ([], [])
  | word :: rest =>
    match assignment? word with
    | some assignment => (assignment :: (splitAssignments rest).1, (splitAssignments rest).2)
    | none => ([], word :: rest)

/-- A reserved word is recognised as the first word of a command only. -/
def readSimple (reserved : List (List Char)) : List Word → Option SimpleCommand
  | [] => none
  | first :: rest =>
    if (plainText first).any (reserved.contains ·) then none
    else
      some
        { assignments := (splitAssignments (first :: rest)).1
          words := (splitAssignments (first :: rest)).2.map removeQuotes }

/-- The words between the operators. -/
def splitAnd : List Token → List (List Word)
  | [] => [[]]
  | .and :: rest => [] :: splitAnd rest
  | .word word :: rest =>
    match splitAnd rest with
    | [] => [[word]]
    | group :: groups => (word :: group) :: groups

/-- The list of commands that the text is read as, by a shell with these reserved words. -/
def read (reserved : List (List Char)) (text : List Char) : Option (List SimpleCommand) :=
  (lex .between text).bind fun tokens => (splitAnd tokens).mapM (readSimple reserved)

/-! Text that spells a word. -/

/-- The text goes on with the word, wherever it stands in it. -/
def Spells (part : List Char) (word : Word) : Prop :=
  ∀ begun rest, lex (.word begun) (part ++ rest) = lex (.word (begun ++ word)) rest

theorem Spells.append {first second : List Char} {firstWord secondWord : Word} (spells : Spells first firstWord)
    (follows : Spells second secondWord) : Spells (first ++ second) (firstWord ++ secondWord) := by
  intro begun rest
  rw [List.append_assoc, spells, follows, List.append_assoc]

/-- A character that stands for itself. -/
def ordinary (c : Char) : Bool :=
  !(isBlank c || c = '&' || c = singleQuote || c = doubleQuote || c = backslash || special.contains c)

theorem spells_char {c : Char} (plain : ordinary c = true) : Spells [c] [.plain c] := by
  intro begun rest
  simp only [ordinary, Bool.not_eq_true', Bool.or_eq_false_iff, decide_eq_false_iff_not, List.contains_eq_mem] at plain
  obtain ⟨⟨⟨⟨⟨blank, and⟩, single⟩, double⟩, escape⟩, unusual⟩ := plain
  rw [List.singleton_append, lex]
  simp only [blank, and, feed, single, double, escape, unusual, if_false, Bool.false_eq_true]

theorem spells_ordinary {part : List Char} (plain : ∀ c ∈ part, ordinary c = true) :
    Spells part (part.map .plain) := by
  induction part with
  | nil =>
    intro begun rest
    rw [List.map_nil, List.append_nil, List.nil_append]
  | cons c part ih =>
    have here := spells_char (plain c List.mem_cons_self)
    exact here.append (ih fun other member => plain other (List.mem_cons_of_mem c member))

/-- The usual quoting: single quotes around the text, and those inside it between double quotes. -/
def quote (value : List Char) : List Char :=
  singleQuote :: value.flatMap (fun c =>
    if c = singleQuote then [singleQuote, doubleQuote, singleQuote, doubleQuote, singleQuote] else [c]) ++ [singleQuote]

/-- The word that a quoted text spells, from within the quotes. -/
def quotedRest (content : List Char) : List Char → Word
  | [] => [.quoted content]
  | c :: rest =>
    if c = singleQuote then .quoted content :: .quoted [singleQuote] :: quotedRest [] rest
    else quotedRest (content ++ [c]) rest

theorem lex_singleQuote (begun : Word) (rest : List Char) :
    lex (.word begun) (singleQuote :: rest) = lex (.single begun []) rest := by
  rw [lex]
  rfl

theorem lex_doubleQuote (begun : Word) (rest : List Char) :
    lex (.word begun) (doubleQuote :: rest) = lex (.double begun []) rest := by
  rw [lex]
  rfl

theorem lex_quotedRest (value : List Char) (content : List Char) (begun : Word) (rest : List Char) :
    lex (.single begun content) (value.flatMap (fun c =>
      if c = singleQuote then [singleQuote, doubleQuote, singleQuote, doubleQuote, singleQuote] else [c]) ++
        singleQuote :: rest) = lex (.word (begun ++ quotedRest content value)) rest := by
  induction value generalizing content begun with
  | nil => rw [List.flatMap_nil, List.nil_append, lex, if_pos rfl, quotedRest]
  | cons c value ih =>
    rw [List.flatMap_cons, quotedRest]
    by_cases same : c = singleQuote
    · rw [if_pos same, if_pos same]
      simp only [List.cons_append, List.nil_append]
      rw [lex, if_pos rfl, lex_doubleQuote, lex, if_neg (by decide), if_neg (by decide), lex, if_pos rfl,
        lex_singleQuote, List.nil_append]
      rw [ih]
      simp only [List.append_assoc, List.cons_append, List.nil_append]
    · rw [if_neg same, if_neg same]
      simp only [List.cons_append, List.nil_append]
      rw [lex, if_neg same, ih]

theorem spells_quote (value : List Char) : Spells (quote value) (quotedRest [] value) := by
  intro begun rest
  rw [quote, List.cons_append, List.cons_append, List.append_assoc, List.singleton_append, lex_singleQuote]
  exact lex_quotedRest value [] begun rest

theorem removeQuotes_quotedRest (content value : List Char) :
    removeQuotes (quotedRest content value) = content ++ value := by
  induction value generalizing content with
  | nil => simp [quotedRest, removeQuotes, Piece.text]
  | cons c value ih =>
    rw [quotedRest]
    split
    · rename_i same
      have rest := ih []
      rw [removeQuotes] at rest ⊢
      simp [Piece.text, rest, same]
    · rw [ih, List.append_assoc, List.singleton_append]

theorem quotedRest_head (content value : List Char) : ∃ first rest, quotedRest content value = .quoted first :: rest := by
  induction value generalizing content with
  | nil => exact ⟨content, [], rfl⟩
  | cons c value ih =>
    rw [quotedRest]
    split
    · exact ⟨_, _, rfl⟩
    · exact ih _

theorem removeQuotes_plain (part : List Char) : removeQuotes (part.map .plain) = part := by
  rw [removeQuotes, List.flatMap_map]
  exact List.flatMap_singleton' part

/-! Texts that stand for whole words, and words that are joined. -/

structure Denotes (part : List Char) (word : Word) : Prop where
  starts : ∃ c rest, part = c :: rest ∧ isBlank c = false ∧ c ≠ '&'
  spells : Spells part word

theorem Denotes.lex_begin {part : List Char} {word : Word} (denotes : Denotes part word) (rest : List Char) :
    lex .between (part ++ rest) = lex (.word word) rest := by
  obtain ⟨c, tail, rfl, blank, and⟩ := denotes.starts
  have begins : lex .between (c :: (tail ++ rest)) = lex (.word []) (c :: (tail ++ rest)) := by
    rw [lex, lex]
    simp only [blank, and, if_false, Bool.false_eq_true]
  rw [List.cons_append, begins, ← List.cons_append, denotes.spells, List.nil_append]

theorem Denotes.lex_blank {part : List Char} {word : Word} (denotes : Denotes part word) (rest : List Char) :
    lex .between (part ++ ' ' :: rest) = (lex .between rest).map (.word word :: ·) := by
  rw [denotes.lex_begin, lex, if_pos (by decide)]

def joined (parts : List (List Char)) : List Char := [' '].intercalate parts

theorem lex_joined {parts : List (List Char)} {words : List Word} (denoted : List.Forall₂ Denotes parts words) :
    lex .between (joined parts) = some (words.map .word) := by
  induction denoted with
  | nil => rfl
  | @cons part word parts words here rest ih =>
    cases rest with
    | nil =>
      have ended := here.lex_begin []
      rw [List.append_nil] at ended
      rw [joined, List.intercalate_singleton, ended]
      rfl
    | cons next later =>
      rw [joined] at ih ⊢
      rw [List.intercalate_cons_cons, List.append_assoc, List.singleton_append, here.lex_blank, ih]
      rfl

/-- `&&` between blanks ends a list of words. -/
theorem lex_joined_and {parts : List (List Char)} {words : List Word} (denoted : List.Forall₂ Denotes parts words)
    (rest : List Char) :
    lex .between (joined parts ++ " && ".toList ++ rest) =
      (lex .between rest).map fun tokens => words.map .word ++ .and :: tokens := by
  have operator : lex .between ("&& ".toList ++ rest) = (lex .between rest).map (.and :: ·) := by
    show lex .between ('&' :: '&' :: ' ' :: rest) = _
    rw [lex, if_neg (by decide), if_pos rfl, lex, if_pos rfl, lex, if_pos (by decide)]
  induction denoted with
  | nil =>
    show lex .between (' ' :: ("&& ".toList ++ rest)) = _
    rw [lex, if_pos (by decide), operator]
    rfl
  | @cons part word parts words here others ih =>
    cases others with
    | nil =>
      have ended := here.lex_blank ("&& ".toList ++ rest)
      rw [operator, Option.map_map] at ended
      rw [joined, List.intercalate_singleton, List.append_assoc]
      exact ended
    | cons next later =>
      rw [joined] at ih ⊢
      rw [List.intercalate_cons_cons]
      simp only [List.append_assoc, List.cons_append, List.nil_append] at ih ⊢
      rw [here.lex_blank, ih, Option.map_map]
      rfl

theorem splitAnd_words (words : List Word) : splitAnd (words.map .word) = [words] := by
  induction words with
  | nil => rfl
  | cons word words ih => rw [List.map_cons, splitAnd, ih]

theorem splitAnd_and (words : List Word) (rest : List Token) :
    splitAnd (words.map .word ++ .and :: rest) = words :: splitAnd rest := by
  induction words with
  | nil => rfl
  | cons word words ih => rw [List.map_cons, List.cons_append, splitAnd, ih]

section Read

variable {reserved : List (List Char)} {parts later : List (List Char)} {words others : List Word}

theorem read_joined (denoted : List.Forall₂ Denotes parts words) :
    read reserved (joined parts) = (readSimple reserved words).map ([·]) := by
  rw [read, lex_joined denoted, Option.bind_some, splitAnd_words, List.mapM_cons]
  cases readSimple reserved words <;> rfl

theorem read_and (denoted : List.Forall₂ Denotes parts words) (follows : List.Forall₂ Denotes later others) :
    read reserved (joined parts ++ " && ".toList ++ joined later) =
      (readSimple reserved words).bind fun first => (readSimple reserved others).map fun second => [first, second] := by
  rw [read, lex_joined_and denoted, lex_joined follows, Option.map_some, Option.bind_some, splitAnd_and,
    splitAnd_words, List.mapM_cons, List.mapM_cons]
  cases readSimple reserved words with
  | none => rfl
  | some first => cases readSimple reserved others <;> rfl

end Read

/-! Which texts stand for words, and which of these assign or are reserved. -/

theorem ordinary_starts {c : Char} (plain : ordinary c = true) : isBlank c = false ∧ c ≠ '&' := by
  simp only [ordinary, Bool.not_eq_true', Bool.or_eq_false_iff, decide_eq_false_iff_not] at plain
  exact ⟨plain.1.1.1.1.1, plain.1.1.1.1.2⟩

theorem denotes_ordinary {part : List Char} (filled : part ≠ []) (plain : ∀ c ∈ part, ordinary c = true) :
    Denotes part (part.map .plain) where
  starts := by
    obtain ⟨c, rest, rfl⟩ := List.exists_cons_of_ne_nil filled
    exact ⟨c, rest, rfl, ordinary_starts (plain c List.mem_cons_self)⟩
  spells := spells_ordinary plain

theorem denotes_quote (value : List Char) : Denotes (quote value) (quotedRest [] value) where
  starts := ⟨singleQuote, _, rfl, by decide, by decide⟩
  spells := spells_quote value

theorem Denotes.append {first second : List Char} {firstWord secondWord : Word} (denotes : Denotes first firstWord)
    (follows : Spells second secondWord) : Denotes (first ++ second) (firstWord ++ secondWord) where
  starts := by
    obtain ⟨c, rest, rfl, begins⟩ := denotes.starts
    exact ⟨c, rest ++ second, rfl, begins⟩
  spells := denotes.spells.append follows

theorem splitEquals_plain {part : List Char} (unequal : '=' ∉ part) (rest : Word) :
    splitEquals (part.map .plain ++ rest) = (splitEquals rest).map fun parts => (part ++ parts.1, parts.2) := by
  induction part with
  | nil => simp
  | cons c part ih =>
    rw [List.mem_cons, not_or] at unequal
    rw [List.map_cons, List.cons_append, splitEquals, if_neg (Ne.symm unequal.1), ih unequal.2, Option.map_map]
    rfl

theorem assignment_quoted {first : List Char} {rest : Word} : assignment? (.quoted first :: rest) = none := rfl

theorem assignment_plain {part : List Char} (unequal : '=' ∉ part) : assignment? (part.map .plain) = none := by
  have none := splitEquals_plain unequal []
  rw [List.append_nil] at none
  rw [assignment?, none]
  rfl

theorem assignment_named {name : List Char} (named : isName name = true) (unequal : '=' ∉ name) (value : Word) :
    assignment? (name.map .plain ++ .plain '=' :: value) = some (name, removeQuotes value) := by
  rw [assignment?, splitEquals_plain unequal, splitEquals, if_pos rfl]
  simp only [Option.map_some, List.append_nil, named, if_true]

theorem plainText_plain (part : List Char) : plainText (part.map .plain) = some part := by
  induction part with
  | nil => rfl
  | cons c part ih => rw [List.map_cons, plainText, ih, Option.map_some]

/-- Words that assign come before a word that does not. -/
theorem splitAssignments_append {assigning : List Word} {assignments : List (List Char × List Char)} {word : Word}
    (assigned : List.Forall₂ (fun word assignment => assignment? word = some assignment) assigning assignments)
    (unassigned : assignment? word = none) (rest : List Word) :
    splitAssignments (assigning ++ word :: rest) = (assignments, word :: rest) := by
  induction assigned with
  | nil => rw [List.nil_append, splitAssignments, unassigned]
  | @cons first assignment assigning assignments here later ih =>
    rw [List.cons_append, splitAssignments, here]
    simp only [ih]

end Shell
