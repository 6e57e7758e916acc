import OpenShell.Lib.Text

namespace Url

open Text

/-! Absolute URLs with the scheme `http` or `https`, as the URL Standard reads them: how the path is cut into segments,
and what becomes of its dot segments. -/

def isSeparator (c : Char) : Bool := c = '/' || c = '\\'

def endsPath (c : Char) : Bool := c = '?' || c = '#'

/-- Tabs and line breaks are ignored anywhere. -/
def isIgnored (c : Char) : Bool := c = '\t' || c = '\n' || c = '\r'

/-- Controls and spaces are trimmed off the ends. -/
def isTrimmed (c : Char) : Bool := c.toNat ≤ 0x20

def cleaned (text : List Char) : List Char := (text.rdropWhile isTrimmed).filter fun c => !isIgnored c

/-- The path that a text behind the authority begins with. -/
def pathPart (text : List Char) : List Char := (cleaned text).takeWhile fun c => !endsPath c

/-- What stands behind the separators of a path. -/
def segmentsOf (path : List Char) : List (List Char) := (splitWhen isSeparator path).tail

def isSingleDot (segment : List Char) : Bool :=
  [".", "%2e"].any fun spelling => spelling.toList == toAsciiLowercase segment

def isDoubleDot (segment : List Char) : Bool :=
  ["..", ".%2e", "%2e.", "%2e%2e"].any fun spelling => spelling.toList == toAsciiLowercase segment

def pass (path : List (List Char)) (segment : List Char) : List (List Char) :=
  if isDoubleDot segment then path.dropLast
  else if isSingleDot segment then path
  else path ++ [segment]

/-- A dot segment at the end leaves an empty segment. -/
def ending (segments : List (List Char)) : List (List Char) :=
  if segments.getLast?.any fun last => isDoubleDot last || isSingleDot last then [[]] else []

def resolve (segments : List (List Char)) : List (List Char) := segments.foldl pass [] ++ ending segments

/-- The path of a URL, whose text behind the authority is given. -/
def pathSegments (text : List Char) : List (List Char) :=
  if (pathPart text).isEmpty then [[]] else resolve (segmentsOf (pathPart text))

/-- A character that stands for itself in an authority and in a segment. -/
def isPlain (c : Char) : Bool := c.isAlphanum || "-._~!$&'()*+,;=:@%[]".toList.contains c

/-! Segments, taken relative to the path in front of them. -/

/-- The segments climb over so many of the path in front, and these are left of them. -/
structure Relative where
  ups : Nat := 0
  downs : List (List Char) := []

def Relative.pass (relative : Relative) (segment : List Char) : Relative :=
  if isDoubleDot segment then
    if relative.downs.isEmpty then { relative with ups := relative.ups + 1 }
    else { relative with downs := relative.downs.dropLast }
  else if isSingleDot segment then relative
  else { relative with downs := relative.downs ++ [segment] }

def relative (segments : List (List Char)) : Relative := segments.foldl Relative.pass {}

def Relative.behind (relative : Relative) (path : List (List Char)) : List (List Char) :=
  path.take (path.length - relative.ups) ++ relative.downs

section Relative

variable {path : List (List Char)}

theorem pass_behind (taken : Relative) (segment : List Char) :
    pass (taken.behind path) segment = (taken.pass segment).behind path := by
  unfold pass Relative.pass Relative.behind
  split
  · cases downs : taken.downs with
    | nil =>
      simp only [List.isEmpty_nil, if_true, List.append_nil]
      rw [List.dropLast_eq_take, List.take_take, List.length_take]
      congr 1
      omega
    | cons first rest =>
      simp only [List.isEmpty_cons, Bool.false_eq_true, if_false]
      rw [List.dropLast_append_of_ne_nil (List.cons_ne_nil _ _)]
  · split
    · rfl
    · rw [List.append_assoc]

theorem foldl_pass_behind (taken : Relative) (segments : List (List Char)) :
    segments.foldl pass (taken.behind path) = (segments.foldl Relative.pass taken).behind path := by
  induction segments generalizing taken with
  | nil => rfl
  | cons segment segments ih => rw [List.foldl_cons, List.foldl_cons, pass_behind, ih]

/-- What the segments do to a path depends on them alone. -/
theorem foldl_pass_relative (segments : List (List Char)) :
    segments.foldl pass path = (relative segments).behind path := by
  have start : ({} : Relative).behind path = path := by
    simp [Relative.behind]
  unfold relative
  rw [← foldl_pass_behind, start]

end Relative

/-! Cutting a path that is put together. -/

/-- It is empty, or begins with a separator. -/
def Rooted (text : List Char) : Prop := ∀ c ∈ text.head?, isSeparator c = true

theorem segmentsOf_append {second : List Char} (rooted : Rooted second) (first : List Char) :
    segmentsOf (first ++ second) = segmentsOf first ++ segmentsOf second := by
  cases second with
  | nil => simp [segmentsOf, splitWhen]
  | cons c second =>
    have cut : isSeparator c = true := rooted c rfl
    have behind : segmentsOf (c :: second) = splitWhen isSeparator second := by
      rw [segmentsOf, splitWhen, if_pos cut]
      rfl
    rw [behind, segmentsOf, segmentsOf, splitWhen_append_cons cut,
      List.tail_append_of_ne_nil (splitWhen_ne_nil isSeparator first)]

/-- A path that begins with segments of which the last is no dot segment. -/
theorem resolve_append {front behind : List (List Char)} (plain : ending front = []) :
    resolve (front ++ behind) = (relative behind).behind (front.foldl pass []) ++ ending behind := by
  rw [resolve, List.foldl_append, foldl_pass_relative behind]
  congr 1
  cases behind with
  | nil => rw [List.append_nil, plain]; rfl
  | cons segment behind =>
    unfold ending
    rw [List.getLast?_append_of_ne_nil _ (List.cons_ne_nil _ _)]

/-! Cleaning a path that is put together. -/

theorem plain_ascii {c : Char} (plain : isPlain c = true) : c.toNat < 128 := by
  rw [isPlain, Bool.or_eq_true, List.contains_iff_mem] at plain
  rcases plain with alphanum | other
  · have range := alphanum_range alphanum
    omega
  · have all : ("-._~!$&'()*+,;=:@%[]".toList.all fun d => d.toNat < 128) = true := by decide
    simpa using List.all_eq_true.mp all c other

/-- The characters that are escaped in a path. -/
def isEscaped (c : Char) : Bool :=
  c.toNat ≤ 0x20 || 0x7E < c.toNat || "\"#<>?^\x60\x7b\x7d".toList.contains c

/-- A plain character has no part in the syntax. -/
theorem plain_apart {c : Char} (plain : isPlain c = true) :
    isEscaped c = false ∧ isSeparator c = false ∧ endsPath c = false ∧ isTrimmed c = false ∧ isIgnored c = false := by
  have all : ∀ code : Fin 128, isPlain (Char.ofNat code) = true →
      isEscaped (Char.ofNat code) = false ∧ isSeparator (Char.ofNat code) = false ∧ endsPath (Char.ofNat code) = false ∧
        isTrimmed (Char.ofNat code) = false ∧ isIgnored (Char.ofNat code) = false := by
    decide +kernel
  have here := all ⟨c.toNat, plain_ascii plain⟩
  rw [Char.ofNat_toNat] at here
  exact here plain

/-- Nothing is ignored in it, nor does the path end there. -/
def Clean (text : List Char) : Prop := ∀ c ∈ text, isTrimmed c = false ∧ isIgnored c = false ∧ endsPath c = false

theorem rdropWhile_append {α : Type} {p : α → Bool} {first : List α} {last : α} (kept : p last = false)
    (second : List α) : (first ++ last :: second).rdropWhile p = first ++ last :: second.rdropWhile p := by
  unfold List.rdropWhile
  rw [List.reverse_append, List.reverse_cons, List.append_assoc, List.dropWhile_append]
  cases rest : second.reverse.dropWhile p with
  | nil => simp [kept]
  | cons item items => simp

theorem cleaned_append {front : List Char} (clean : Clean front) (filled : front ≠ []) (behind : List Char) :
    cleaned (front ++ behind) = front ++ cleaned behind := by
  have kept : (front ++ behind).rdropWhile isTrimmed = front ++ behind.rdropWhile isTrimmed := by
    have last := (clean _ (List.getLast_mem filled)).1
    rw [← List.dropLast_concat_getLast filled, List.append_assoc, List.singleton_append, rdropWhile_append last,
      List.append_assoc, List.singleton_append]
  rw [cleaned, kept, List.filter_append, cleaned]
  congr 1
  rw [List.filter_eq_self]
  intro c member
  rw [(clean c member).2.1]
  rfl

theorem pathPart_append {front : List Char} (clean : Clean front) (filled : front ≠ []) (behind : List Char) :
    pathPart (front ++ behind) = front ++ pathPart behind := by
  rw [pathPart, cleaned_append clean filled, pathPart, List.takeWhile_append_of_pos]
  intro c member
  rw [(clean c member).2.2]
  rfl

/-! Paths that are spelled by their segments. -/

def spell (segments : List (List Char)) : List Char := segments.flatMap ('/' :: ·)

/-- The segment stands for itself, and is no dot segment. -/
structure Still (segment : List Char) : Prop where
  plain : ∀ c ∈ segment, isPlain c = true
  singleDot : isSingleDot segment = false
  doubleDot : isDoubleDot segment = false

section Spelled

variable {segments kept : List (List Char)} {base rest : List Char}

theorem rooted_spell (segments : List (List Char)) : Rooted (spell segments) := by
  cases segments with
  | nil =>
    intro c first
    cases first
  | cons segment segments =>
    intro c first
    cases first
    rfl

theorem segmentsOf_spell (still : ∀ segment ∈ segments, Still segment) : segmentsOf (spell segments) = segments := by
  induction segments with
  | nil => rfl
  | cons segment segments ih =>
    have whole : ∀ c ∈ segment, isSeparator c = false := by
      intro c member
      exact (plain_apart ((still segment List.mem_cons_self).plain c member)).2.1
    have first : segmentsOf ('/' :: segment) = [segment] := by
      rw [segmentsOf, splitWhen, if_pos (by rfl), splitWhen_whole whole]
      rfl
    show segmentsOf ('/' :: segment ++ spell segments) = _
    rw [segmentsOf_append (rooted_spell segments), first, ih fun other member => still other (List.mem_cons_of_mem _ member)]
    rfl

theorem foldl_pass_still (still : ∀ segment ∈ segments, Still segment) (path : List (List Char)) :
    segments.foldl pass path = path ++ segments := by
  induction segments generalizing path with
  | nil => simp
  | cons segment segments ih =>
    have first := still segment List.mem_cons_self
    rw [List.foldl_cons, pass, first.singleDot, first.doubleDot, ih fun other member => still other (List.mem_cons_of_mem _ member)]
    simp

theorem ending_still (still : ∀ segment ∈ segments, Still segment) (filled : segments ≠ []) (front : List (List Char)) :
    ending (front ++ segments) = [] := by
  have last := still _ (List.getLast_mem filled)
  rw [ending, List.getLast?_append_of_ne_nil _ filled, List.getLast?_eq_some_getLast filled, Option.any_some,
    last.singleDot, last.doubleDot]
  rfl

theorem clean_spell (still : ∀ segment ∈ segments, Still segment) : Clean (spell segments) := by
  intro c member
  obtain ⟨segment, inside, here⟩ := List.mem_flatMap.mp member
  rcases List.mem_cons.mp here with rfl | own
  · decide
  · obtain ⟨_, _, ends, trimmed, ignored⟩ := plain_apart ((still segment inside).plain c own)
    exact ⟨trimmed, ignored, ends⟩

/-- Behind a base and the segments that are kept, the rest of the text takes what it climbs over. -/
theorem pathSegments_spelled (clean : Clean base) (still : ∀ segment ∈ kept, Still segment) (filled : kept ≠ [])
    (rooted : Rooted (pathPart rest)) :
    pathSegments (base ++ (spell kept ++ rest)) =
      (relative (segmentsOf (pathPart rest))).behind ((segmentsOf base).foldl pass [] ++ kept) ++
        ending (segmentsOf (pathPart rest)) := by
  have written : spell kept ≠ [] := by
    obtain ⟨segment, others, rfl⟩ := List.exists_cons_of_ne_nil filled
    exact List.cons_ne_nil _ _
  have cleanFront : Clean (base ++ spell kept) := by
    intro c member
    rcases List.mem_append.mp member with before | here
    · exact clean c before
    · exact clean_spell still c here
  have part : pathPart (base ++ (spell kept ++ rest)) = base ++ (spell kept ++ pathPart rest) := by
    rw [← List.append_assoc, pathPart_append cleanFront (by simp [written]), List.append_assoc]
  have rootedBehind : Rooted (spell kept ++ pathPart rest) := by
    obtain ⟨segment, others, rfl⟩ := List.exists_cons_of_ne_nil filled
    intro c first
    cases first
    rfl
  rw [pathSegments, part, if_neg (by simp [written]), segmentsOf_append rootedBehind, segmentsOf_append rooted,
    segmentsOf_spell still, ← List.append_assoc, resolve_append (ending_still still filled _), List.foldl_append,
    foldl_pass_still still]

end Spelled

/-! Readers of URLs. -/

structure HttpUrl (Authority : Type) where
  scheme : List Char
  authority : Authority
  path : List (List Char)
deriving DecidableEq

def isHttp (scheme : List Char) : Bool :=
  ["http", "https"].any fun spelling => spelling.toList == toAsciiLowercase scheme

/-- A reader of URLs, with what it makes of the text of an authority, and the escapes it writes into a segment. -/
structure UrlParser where
  Authority : Type
  readAuthority : List Char → List Char → Option Authority
  written : List Char → List Char
  parse : List Char → Option (HttpUrl Authority)

/-- Plain characters are written as they are. The authority ends where the path, the query or the fragment begins, and the
path is resolved. -/
structure UrlParser.Lawful (parser : UrlParser) : Prop where
  written_plain : ∀ segment, (∀ c ∈ segment, isPlain c = true) → parser.written segment = segment
  parse_http : ∀ scheme authority text, isHttp scheme = true → authority ≠ [] →
    (∀ c ∈ authority, isPlain c = true) → (∀ c ∈ text.head?, (isSeparator c || endsPath c) = true) →
    parser.parse (scheme ++ "://".toList ++ authority ++ text) =
      (parser.readAuthority (toAsciiLowercase scheme) authority).map fun read =>
        ⟨toAsciiLowercase scheme, read, (pathSegments text).map parser.written⟩

def escapeSegment (segment : List Char) : List Char :=
  segment.flatMap fun c =>
    if isEscaped c then
      (String.utf8EncodeChar c).flatMap fun byte =>
        ['%', "0123456789ABCDEF".toList.getD (byte.toNat / 16) '0', "0123456789ABCDEF".toList.getD (byte.toNat % 16) '0']
    else [c]

/-- Behind a scheme, the authority is read up to the first character that does not stand for itself. -/
def readHttp (scheme text : List Char) : Option (HttpUrl (List Char)) :=
  let authority := text.takeWhile isPlain
  if authority.isEmpty then none
  else some ⟨scheme, authority, (pathSegments (text.dropWhile isPlain)).map escapeSegment⟩

def readText (text : List Char) : Option (HttpUrl (List Char)) :=
  let scheme := text.takeWhile (· != ':')
  if isHttp scheme then
    (stripPrefix "://".toList (text.dropWhile (· != ':'))).bind (readHttp (toAsciiLowercase scheme))
  else none

/-- A reader that takes every authority as it is written. -/
def textualParser : UrlParser where
  Authority := List Char
  readAuthority _ authority := some authority
  written := escapeSegment
  parse := readText

theorem readHttp_append {authority text : List Char} (filled : authority ≠ []) (plain : ∀ c ∈ authority, isPlain c = true)
    (ends : ∀ c ∈ text.head?, (isSeparator c || endsPath c) = true) (scheme : List Char) :
    readHttp scheme (authority ++ text) = some ⟨scheme, authority, (pathSegments text).map escapeSegment⟩ := by
  have stops : text.takeWhile isPlain = [] ∧ text.dropWhile isPlain = text := by
    cases text with
    | nil => exact ⟨rfl, rfl⟩
    | cons c text =>
      have other : isPlain c = false := by
        rw [← Bool.not_eq_true]
        intro plainToo
        obtain ⟨_, separates, finishes, _⟩ := plain_apart plainToo
        have marks := ends c rfl
        rw [separates, finishes] at marks
        cases marks
      simp [other]
  unfold readHttp
  rw [List.takeWhile_append_of_pos plain, stops.1, List.append_nil, List.dropWhile_append_of_pos plain, stops.2,
    if_neg (by simpa using filled)]

theorem colon_of_isHttp {scheme : List Char} (known : isHttp scheme = true) : ∀ c ∈ scheme, (c != ':') = true := by
  obtain ⟨spelling, listed, same⟩ := List.any_eq_true.mp known
  rw [beq_iff_eq] at same
  intro c member
  rw [bne_iff_ne]
  intro same
  subst same
  have inside : Char.toLower ':' ∈ spelling.toList := by
    rw [same]
    exact List.mem_map_of_mem member
  have apart : (["http", "https"].all fun spelling => !spelling.toList.contains (Char.toLower ':')) = true := by decide
  have absent := List.all_eq_true.mp apart spelling listed
  rw [List.contains_iff_mem.mpr inside] at absent
  cases absent

theorem textualParser_lawful : textualParser.Lawful where
  written_plain segment plain := by
    show escapeSegment segment = segment
    induction segment with
    | nil => rfl
    | cons c segment ih =>
      rw [escapeSegment, List.flatMap_cons, (plain_apart (plain c List.mem_cons_self)).1]
      have later := ih fun d member => plain d (List.mem_cons_of_mem _ member)
      rw [escapeSegment] at later
      rw [later]
      rfl
  parse_http scheme authority text known filled plain ends := by
    have colons := colon_of_isHttp known
    have taken : (scheme ++ "://".toList ++ authority ++ text).takeWhile (· != ':') = scheme := by
      rw [List.append_assoc, List.append_assoc, List.takeWhile_append_of_pos colons]
      simp
    have dropped : (scheme ++ "://".toList ++ authority ++ text).dropWhile (· != ':') =
        "://".toList ++ (authority ++ text) := by
      rw [List.append_assoc, List.append_assoc, List.dropWhile_append_of_pos colons]
      rfl
    show readText (scheme ++ "://".toList ++ authority ++ text) =
      some ⟨toAsciiLowercase scheme, authority, (pathSegments text).map escapeSegment⟩
    unfold readText
    simp only
    rw [taken, dropped, if_pos known, stripPrefix_eq_some.mpr rfl]
    exact readHttp_append filled plain ends _

end Url
