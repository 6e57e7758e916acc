import OpenShell.Lib.Numbers
import OpenShell.Sandbox.Http

namespace OpenShell.Sandbox

open Text Results

/-! What the Transfer-Encoding and Content-Length fields of a header block say of the body. -/

/-- The name of a header line in lower case, and its value. -/
def headerField (line : List Char) : Option (List Char × List Char) :=
  (splitOnce ':' line).map fun parts => (toAsciiLowercase parts.1, trim parts.2)

/-- The value of a line that is a field of that name, with the field read off the line in some way. -/
def valueOf (fieldOf : List Char → Option (List Char × List Char)) (name : String) (line : List Char) :
    Option (List Char) :=
  (fieldOf line).bind fun field => if field.1 = name.toList then some field.2 else none

def valuesOf (fieldOf : List Char → Option (List Char × List Char)) (name : String) (lines : List (List Char)) :
    List (List Char) :=
  lines.filterMap (valueOf fieldOf name)

def listsChunked (coding : List Char) : Bool :=
  (split ',' coding).any fun part => toAsciiLowercase (trim part) = "chunked".toList

def headerLines (headers : List Char) : List (List Char) := (lines headers).drop 1

/-- Both fields are there. -/
structure Ambiguous (headers : List Char) : Prop where
  coded : valuesOf headerField "transfer-encoding" (headerLines headers) ≠ []
  sized : valuesOf headerField "content-length" (headerLines headers) ≠ []

/-- The one length that the values state, besides one that is known. -/
def agreedLength : Option Nat → List (List Char) → Option (Option Nat)
  | held, [] => some held
  | held, value :: values =>
    (parseUnsigned 10 (2 ^ 64) value).bind fun length =>
      if held.any (· ≠ length) then none else agreedLength (some length) values

def bodyLengthOf (chunked : Bool) (length : Option Nat) : Option BodyLength :=
  match chunked, length with
  | true, some _ => none
  | true, none => some .chunked
  | false, some length => some (.contentLength length)
  | false, none => some .none

/-- The framing that the values of the two fields decide; `none` if they are refused. -/
def framingOf (codings lengths : List (List Char)) : Option BodyLength :=
  (agreedLength none lengths).bind (bodyLengthOf (codings.any listsChunked))

section Agreed

variable {held : Option Nat} {lengths : List (List Char)} {length : Nat}

theorem agreedLength_eq_none_iff : agreedLength held lengths = some none ↔ held = none ∧ lengths = [] := by
  induction lengths generalizing held with
  | nil => simp [agreedLength]
  | cons value values ih =>
    unfold agreedLength
    constructor
    · intro agreed
      obtain ⟨length, _, agreed⟩ := Option.bind_eq_some_iff.mp agreed
      split at agreed
      · cases agreed
      · exact absurd (ih.mp agreed).1 (Option.some_ne_none length)
    · rintro ⟨_, empty⟩
      cases empty

theorem agreedLength_eq_some_iff : agreedLength held lengths = some (some length) ↔
    (∀ known ∈ held, known = length) ∧ (∀ value ∈ lengths, parseUnsigned 10 (2 ^ 64) value = some length) ∧
      (held = none → lengths ≠ []) := by
  induction lengths generalizing held with
  | nil => cases held <;> simp [agreedLength]
  | cons value values ih =>
    unfold agreedLength
    constructor
    · intro agreed
      obtain ⟨parsed, found, agreed⟩ := Option.bind_eq_some_iff.mp agreed
      split at agreed
      · cases agreed
      · rename_i matched
        obtain ⟨same, later, _⟩ := ih.mp agreed
        obtain rfl : parsed = length := same parsed rfl
        refine ⟨?_, ?_, fun _ => List.cons_ne_nil _ _⟩
        · intro known isHeld
          rw [Option.mem_def] at isHeld
          simpa [isHeld] using matched
        · intro other member
          rcases List.mem_cons.mp member with rfl | inside
          · exact found
          · exact later other inside
    · rintro ⟨known, parsed, _⟩
      have found := parsed value List.mem_cons_self
      have matched : ¬ held.any (· ≠ length) = true := by
        cases held with
        | none => simp
        | some other => simpa using known other rfl
      rw [found, Option.bind_some, if_neg matched]
      apply ih.mpr
      refine ⟨?_, fun other member => parsed other (List.mem_cons_of_mem _ member), fun none => by cases none⟩
      intro other same
      cases same
      rfl

theorem agreedLength_start : agreedLength none lengths = some (some length) ↔
    lengths ≠ [] ∧ ∀ value ∈ lengths, parseUnsigned 10 (2 ^ 64) value = some length := by
  rw [agreedLength_eq_some_iff]
  constructor
  · rintro ⟨_, same, filled⟩
    exact ⟨filled rfl, same⟩
  · rintro ⟨filled, same⟩
    refine ⟨?_, same, fun _ => filled⟩
    intro known impossible
    cases impossible

/-- The values are refused, if they are not all the same number. -/
theorem agreedLength_isNone_iff (filled : lengths ≠ []) : agreedLength none lengths = none ↔
    ¬ ∃ length, ∀ value ∈ lengths, parseUnsigned 10 (2 ^ 64) value = some length := by
  cases agreed : agreedLength none lengths with
  | none =>
    refine iff_of_true rfl ?_
    rintro ⟨length, same⟩
    rw [agreedLength_start.mpr ⟨filled, same⟩] at agreed
    cases agreed
  | some length =>
    refine iff_of_false (Option.some_ne_none _) ?_
    rw [not_not]
    cases length with
    | none => exact absurd (agreedLength_eq_none_iff.mp agreed).2 filled
    | some length => exact ⟨length, (agreedLength_start.mp agreed).2⟩

theorem framingOf_eq_contentLength_iff {codings : List (List Char)} :
    framingOf codings lengths = some (.contentLength length) ↔ codings.any listsChunked = false ∧ lengths ≠ [] ∧
      ∀ value ∈ lengths, parseUnsigned 10 (2 ^ 64) value = some length := by
  unfold framingOf
  constructor
  · intro framed
    obtain ⟨agreed, found, framed⟩ := Option.bind_eq_some_iff.mp framed
    cases chunked : codings.any listsChunked <;> cases agreed <;> rw [chunked] at framed <;> cases framed
    exact ⟨rfl, agreedLength_start.mp found⟩
  · rintro ⟨plain, agreed⟩
    rw [agreedLength_start.mpr agreed, plain]
    rfl

theorem framingOf_eq_none_iff {codings : List (List Char)} (filled : lengths ≠ []) : framingOf codings lengths = none ↔
    (∃ coding ∈ codings, listsChunked coding = true) ∨
      ¬ ∃ length, ∀ value ∈ lengths, parseUnsigned 10 (2 ^ 64) value = some length := by
  rw [← agreedLength_isNone_iff filled, ← List.any_eq_true]
  unfold framingOf
  cases agreed : agreedLength none lengths with
  | none => simp
  | some length =>
    cases length with
    | none => exact absurd (agreedLength_eq_none_iff.mp agreed).2 filled
    | some length => cases codings.any listsChunked <;> simp [bodyLengthOf]

end Agreed

/-! The REST parser decides by these values. -/

section Rest

variable {name field : String} {line : List Char}

theorem isField_iff (spelled : field = name ++ ":") (plain : ':' ∉ name.toList) (text : List Char) :
    isField field text = true ↔ ∃ value, splitOnce ':' text = some (name.toList, value) := by
  unfold isField
  rw [spelled, List.isPrefixOf_iff_prefix, String.toList_append]
  constructor
  · rintro ⟨value, whole⟩
    refine ⟨value, ?_⟩
    rw [← whole, List.append_assoc]
    exact splitOnce_append plain value
  · rintro ⟨value, found⟩
    obtain ⟨whole, _⟩ := splitOnce_eq_some found
    refine ⟨value, ?_⟩
    rw [whole, List.append_assoc]
    rfl

/-- A line in lower case is a field of the name where the line is, and has its value in lower case. -/
theorem field_lowercase (spelled : field = name ++ ":") (plain : ':' ∉ name.toList) (line : List Char) :
    (if isField field (toAsciiLowercase line) then some (fieldValue (toAsciiLowercase line)) else none) =
      (valueOf headerField name line).map toAsciiLowercase := by
  have cut := @splitOnce_lowercase ':' (.inl (by decide)) line
  unfold valueOf headerField
  cases found : splitOnce ':' line with
  | none =>
    rw [found] at cut
    have other : ¬ isField field (toAsciiLowercase line) = true := by
      rw [isField_iff spelled plain, cut]
      rintro ⟨value, impossible⟩
      cases impossible
    rw [if_neg other]
    rfl
  | some parts =>
    obtain ⟨before, after⟩ := parts
    rw [found] at cut
    have named : isField field (toAsciiLowercase line) = true ↔ toAsciiLowercase before = name.toList := by
      rw [isField_iff spelled plain, cut]
      simp
    have value : fieldValue (toAsciiLowercase line) = toAsciiLowercase (trim after) := by
      unfold fieldValue
      rw [cut]
      exact trim_lowercase after
    simp only [Option.map_some, Option.bind_some]
    by_cases same : toAsciiLowercase before = name.toList
    · rw [if_pos (named.mpr same), if_pos same, value]
      rfl
    · rw [if_neg (mt named.mp same), if_neg same]
      rfl

theorem field_absent (spelled : field = name ++ ":") (plain : ':' ∉ name.toList)
    (absent : valueOf headerField name line = none) : isField field (toAsciiLowercase line) = false := by
  have read := field_lowercase spelled plain line
  rw [absent] at read
  split at read
  · cases read
  · rename_i other
    exact Bool.eq_false_iff.mpr other

theorem field_present (spelled : field = name ++ ":") (plain : ':' ∉ name.toList) {value : List Char}
    (present : valueOf headerField name line = some value) :
    isField field (toAsciiLowercase line) = true ∧ fieldValue (toAsciiLowercase line) = toAsciiLowercase value := by
  have read := field_lowercase spelled plain line
  rw [present] at read
  split at read
  · rename_i named
    exact ⟨named, Option.some.inj read⟩
  · cases read

theorem hasItem_lowercase (value : List Char) :
    hasItem "chunked" (toAsciiLowercase value) = listsChunked value := by
  unfold hasItem listsChunked
  rw [split_lowercase (.inl (by decide)), List.any_map]
  congr 1
  funext part
  simp only [Function.comp_apply, trim_lowercase]

theorem readTransferEncoding_eq (framing : Framing) (line : List Char) :
    framing.readTransferEncoding (toAsciiLowercase line) =
      { framing with
        hasTeChunked := framing.hasTeChunked || (valueOf headerField "transfer-encoding" line).any listsChunked } := by
  unfold Framing.readTransferEncoding
  cases found : valueOf headerField "transfer-encoding" line with
  | none =>
    have other : isField "transfer-encoding:" (toAsciiLowercase line) = false := field_absent (by rfl) (by decide) found
    rw [other, Option.any_none, Bool.or_false]
    rfl
  | some value =>
    obtain ⟨named, same⟩ : isField "transfer-encoding:" (toAsciiLowercase line) = true ∧ _ :=
      field_present (by rfl) (by decide) found
    rw [named, same, Bool.true_and, hasItem_lowercase, Option.any_some]
    cases listsChunked value <;> simp

theorem readContentLength_eq (framing : Framing) (line : List Char) :
    (framing.readContentLength (toAsciiLowercase line)).toOption =
      (agreedLength framing.clValue (valueOf headerField "content-length" line).toList).map fun length =>
        { framing with clValue := length } := by
  unfold Framing.readContentLength
  cases found : valueOf headerField "content-length" line with
  | none =>
    have other : isField "content-length:" (toAsciiLowercase line) = false := field_absent (by rfl) (by decide) found
    rw [other]
    rfl
  | some value =>
    obtain ⟨named, same⟩ : isField "content-length:" (toAsciiLowercase line) = true ∧ _ :=
      field_present (by rfl) (by decide) found
    rw [named, same, parseUnsigned_lowercase, if_pos rfl, Option.toList_some, agreedLength]
    cases parseUnsigned 10 (2 ^ 64) value with
    | none => rfl
    | some length =>
      cases held : framing.clValue with
      | none => rfl
      | some previous =>
        simp only [Option.bind_some, Option.any_some, decide_eq_true_eq]
        split <;> rfl

theorem agreedLength_append (held : Option Nat) (first second : List (List Char)) :
    agreedLength held (first ++ second) = (agreedLength held first).bind fun length => agreedLength length second := by
  induction first generalizing held with
  | nil => rfl
  | cons value values ih =>
    rw [List.cons_append, agreedLength, agreedLength]
    cases parseUnsigned 10 (2 ^ 64) value with
    | none => rfl
    | some length =>
      simp only [Option.bind_some]
      split
      · rfl
      · exact ih _

theorem valuesOf_cons (fieldOf : List Char → Option (List Char × List Char)) (name : String) (line : List Char)
    (lines : List (List Char)) :
    valuesOf fieldOf name (line :: lines) = (valueOf fieldOf name line).toList ++ valuesOf fieldOf name lines :=
  filterMap_cons_toList _ _ _

theorem foldlM_readLine (lines : List (List Char)) (framing : Framing) :
    ((lines.map toAsciiLowercase).foldlM Framing.readLine framing).toOption =
      (agreedLength framing.clValue (valuesOf headerField "content-length" lines)).map fun length =>
        ⟨framing.hasTeChunked || (valuesOf headerField "transfer-encoding" lines).any listsChunked, length⟩ := by
  induction lines generalizing framing with
  | nil =>
    simp only [valuesOf, List.map_nil, List.foldlM_nil, List.filterMap_nil, agreedLength, Option.map_some, List.any_nil,
      Bool.or_false]
    rfl
  | cons line lines ih =>
    rw [List.map_cons, List.foldlM_cons, toOption_bind, Framing.readLine, readTransferEncoding_eq,
      readContentLength_eq, valuesOf_cons, valuesOf_cons, agreedLength_append, any_toList_append]
    simp only [Option.bind_map, Option.map_bind, Function.comp_def, ih, Bool.or_assoc]

/-- What the REST parser makes of the header lines behind the first. -/
theorem parseBodyLength_eq (headers : List Char) : (parseBodyLength headers).toOption =
    framingOf (valuesOf headerField "transfer-encoding" (headerLines headers))
      (valuesOf headerField "content-length" (headerLines headers)) := by
  unfold parseBodyLength headerFields framingOf headerLines
  rw [toOption_bind, foldlM_readLine, Option.bind_map]
  congr 1
  funext length
  simp only [Function.comp_apply, Bool.false_or]
  cases (valuesOf headerField "transfer-encoding" ((lines headers).drop 1)).any listsChunked <;> cases length <;> rfl

end Rest

/-! Messages with both fields. -/

section Both

/-- A message with both fields is refused exactly where one of its codings is `chunked`, or its lengths are not all
    the same number. -/
theorem ambiguous_refused_iff (headers : List Char) (ambiguous : Ambiguous headers) :
    (∃ error, parseBodyLength headers = .error error) ↔
      (∃ coding ∈ valuesOf headerField "transfer-encoding" (headerLines headers), listsChunked coding = true) ∨
        ¬ ∃ length, ∀ value ∈ valuesOf headerField "content-length" (headerLines headers),
          parseUnsigned 10 (2 ^ 64) value = some length := by
  rw [← framingOf_eq_none_iff ambiguous.sized, ← parseBodyLength_eq]
  cases parseBodyLength headers with
  | error error => exact iff_of_true ⟨error, rfl⟩ rfl
  | ok bodyLength =>
    refine iff_of_false ?_ (Option.some_ne_none bodyLength)
    rintro ⟨error, impossible⟩
    cases impossible

def gzipHeaders : List Char := "POST / HTTP/1.1\r\nTransfer-Encoding: gzip\r\nContent-Length: 5\r\n\r\n".toList

/-- Another coding than `chunked` is passed over, and the length is taken. -/
theorem gzipHeaders_accepted : Ambiguous gzipHeaders ∧ parseBodyLength gzipHeaders = .ok (.contentLength 5) :=
  ⟨⟨by decide +kernel, by decide +kernel⟩, by rfl⟩

def listedHeaders : List Char := "POST / HTTP/1.1\r\ntransfer-encoding: gzip, Chunked\r\nContent-Length: 5\r\n\r\n".toList

theorem listedHeaders_refused : Ambiguous listedHeaders ∧ ∃ error, parseBodyLength listedHeaders = .error error := by
  have ambiguous : Ambiguous listedHeaders := ⟨by decide +kernel, by decide +kernel⟩
  refine ⟨ambiguous, (ambiguous_refused_iff listedHeaders ambiguous).mpr (.inl ?_)⟩
  decide +kernel

end Both

end OpenShell.Sandbox
