import OpenShell.Lib.Text

namespace Glob

open Text

/-! Glob patterns: the texts that a pattern matches, by the grammar of patterns. One star stops at the separator, and two
stars do not. A pattern outside the grammar matches nothing. -/

def isOperator (c : Char) : Bool := "*?\\[\x7b\x7d".toList.contains c

/-- Between alternatives the comma has a meaning as well. -/
def isPlain (inList : Bool) (c : Char) : Bool := !isOperator c && !(inList && c == ',')

/-- Ranges of characters, and what they cover. -/
inductive Ranges : List Char → (Char → Prop) → Prop
  | done : Ranges [] fun _ => False
  | one {c text covered} : c ∉ "\\-]".toList → Ranges text covered → Ranges (c :: text) fun d => d = c ∨ covered d
  | escaped {c text covered} : Ranges text covered → Ranges ('\\' :: c :: text) fun d => d = c ∨ covered d
  | span {low high text covered} : low ∉ "\\-]".toList → high ∉ "\\-]".toList → Ranges text covered →
      Ranges (low :: '-' :: high :: text) fun d => (low ≤ d ∧ d ≤ high) ∨ covered d

/-- What stands between brackets. -/
inductive Class : List Char → (Char → Prop) → Prop
  | of {ranges covered} : Ranges ranges covered → ranges ≠ [] → ranges.head? ≠ some '!' → Class ranges covered
  | except {ranges covered} : Ranges ranges covered → ranges ≠ [] → Class ('!' :: ranges) fun c => ¬covered c

inductive WellFormed : Bool → List Char → Prop
  | done {inList} : WellFormed inList []
  | plain {inList c pattern} : isPlain inList c = true → WellFormed inList pattern → WellFormed inList (c :: pattern)
  | escaped {inList c pattern} : WellFormed inList pattern → WellFormed inList ('\\' :: c :: pattern)
  | wildcard {inList c pattern} : c = '*' ∨ c = '?' → WellFormed inList pattern → WellFormed inList (c :: pattern)
  | oneOf {inList content covered pattern} : Class content covered → WellFormed inList pattern →
      WellFormed inList ('[' :: (content ++ ']' :: pattern))
  | alternatives {inList pieces pattern} : pieces ≠ [] → (∀ piece ∈ pieces, WellFormed true piece) →
      WellFormed inList pattern → WellFormed inList ('\x7b' :: (join [','] pieces ++ '\x7d' :: pattern))

inductive Matches (separator : Char) : Bool → List Char → List Char → Prop
  | done {inList} : Matches separator inList [] []
  | plain {inList c pattern text} : isPlain inList c = true → Matches separator inList pattern text →
      Matches separator inList (c :: pattern) (c :: text)
  | escaped {inList c pattern text} : Matches separator inList pattern text →
      Matches separator inList ('\\' :: c :: pattern) (c :: text)
  | star {inList run pattern text} : separator ∉ run → Matches separator inList pattern text →
      Matches separator inList ('*' :: pattern) (run ++ text)
  | stars {inList run pattern text} : Matches separator inList pattern text →
      Matches separator inList ('*' :: '*' :: pattern) (run ++ text)
  | single {inList c pattern text} : c ≠ separator → Matches separator inList pattern text →
      Matches separator inList ('?' :: pattern) (c :: text)
  | oneOf {inList content covered c pattern text} : Class content covered → covered c →
      Matches separator inList pattern text → Matches separator inList ('[' :: (content ++ ']' :: pattern)) (c :: text)
  | alternatives {inList pieces piece pattern first second} : piece ∈ pieces →
      (∀ other ∈ pieces, WellFormed true other) → Matches separator true piece first →
      Matches separator inList pattern second →
      Matches separator inList ('\x7b' :: (join [','] pieces ++ '\x7d' :: pattern)) (first ++ second)

/-- No character of the text has a meaning. -/
def Plain (text : List Char) : Prop := ∀ c ∈ text, isOperator c = false

section Patterns

variable {separator : Char} {inList : Bool} {front pattern text behind rest : List Char}

theorem Matches.append (matched : Matches separator inList pattern text)
    (later : Matches separator inList behind rest) : Matches separator inList (pattern ++ behind) (text ++ rest) := by
  induction matched with
  | done => exact later
  | plain stands _ ih => exact .plain stands (ih later)
  | escaped _ ih => exact .escaped (ih later)
  | star apart _ ih =>
    rw [List.append_assoc]
    exact .star apart (ih later)
  | stars _ ih =>
    rw [List.append_assoc]
    exact .stars (ih later)
  | single apart _ ih => exact .single apart (ih later)
  | oneOf written covers _ ih =>
    rw [List.cons_append, List.append_assoc]
    exact .oneOf written covers (ih later)
  | alternatives member formed piece _ _ ih =>
    rw [List.cons_append, List.append_assoc, List.append_assoc]
    exact .alternatives member formed piece (ih later)

theorem Matches.of_plain {c : Char} (matched : Matches separator inList (c :: pattern) text)
    (plain : isOperator c = false) : ∃ rest, text = c :: rest ∧ Matches separator inList pattern rest := by
  cases matched with
  | plain _ later => exact ⟨_, rfl, later⟩
  | escaped => cases plain
  | star => cases plain
  | stars => cases plain
  | single => cases plain
  | oneOf => cases plain
  | alternatives => cases plain

theorem matches_plain_append (plain : Plain front) : Matches separator false (front ++ pattern) text ↔
    ∃ rest, text = front ++ rest ∧ Matches separator false pattern rest := by
  induction front generalizing text with
  | nil => simp
  | cons c front ih =>
    have first := plain c List.mem_cons_self
    have others : Plain front := fun d member => plain d (List.mem_cons_of_mem _ member)
    constructor
    · intro matched
      obtain ⟨later, rfl, behind⟩ := matched.of_plain first
      obtain ⟨rest, rfl, last⟩ := (ih others).mp behind
      exact ⟨rest, rfl, last⟩
    · intro given
      obtain ⟨rest, rfl, last⟩ := given
      exact .plain (by simp [isPlain, first]) ((ih others).mpr ⟨rest, rfl, last⟩)

theorem matches_nil : Matches separator inList [] text ↔ text = [] := by
  constructor
  · intro matched
    cases matched
    rfl
  · intro same
    subst same
    exact .done

theorem matches_star : Matches separator inList ['*'] text ↔ separator ∉ text := by
  constructor
  · intro matched
    cases matched with
    | plain stands => cases inList <;> cases stands
    | star apart later =>
      rw [matches_nil.mp later, List.append_nil]
      exact apart
  · intro apart
    have matched : Matches separator inList ['*'] (text ++ []) := .star apart .done
    rwa [List.append_nil] at matched

/-- A text without operators is matched by itself alone. -/
theorem matches_plain (plain : Plain pattern) : Matches separator false pattern text ↔ text = pattern := by
  have whole := @matches_plain_append separator pattern [] text plain
  rw [List.append_nil] at whole
  rw [whole]
  constructor
  · intro given
    obtain ⟨rest, rfl, last⟩ := given
    rw [matches_nil.mp last, List.append_nil]
  · intro same
    subst same
    exact ⟨[], (List.append_nil _).symm, .done⟩

/-! A pattern with an operator matches something else than itself. -/

theorem Class.filled {content : List Char} {covered : Char → Prop} (written : Class content covered) : content ≠ [] := by
  cases written with
  | of _ filled => exact filled
  | except => exact List.cons_ne_nil _ _

theorem length_le_join {pieces : List (List Char)} {piece : List Char} (member : piece ∈ pieces) :
    piece.length ≤ (join [','] pieces).length :=
  (infix_join member).length_le

theorem operator_of_plain {c : Char} (plain : isPlain inList c = true) : isOperator c = false := by
  unfold isPlain at plain
  rw [Bool.and_eq_true, Bool.not_eq_true'] at plain
  exact plain.1

theorem exists_apart (first second : Char) : ∃ c, c ≠ first ∧ c ≠ second := by
  by_contra none
  have all : ∀ c, c = first ∨ c = second := by
    intro c
    by_contra apart
    rw [not_or] at apart
    exact none ⟨c, apart⟩
  have a := all 'a'
  have b := all 'b'
  have c := all 'c'
  grind

theorem short_or_other (matched : (Plain pattern ∧ text = pattern) ∨ text.length < pattern.length ∨
      ∃ other, other ≠ text ∧ Matches separator inList pattern other) :
    text.length ≤ pattern.length ∨ ∃ other, other ≠ text ∧ Matches separator inList pattern other := by
  rcases matched with ⟨_, rfl⟩ | shorter | other
  · exact .inl (Nat.le_refl _)
  · exact .inl shorter.le
  · exact .inr other

/-- What is matched is the pattern itself, or shorter, or not all that is matched. -/
theorem Matches.plain_or_other (matched : Matches separator inList pattern text) :
    (Plain pattern ∧ text = pattern) ∨ text.length < pattern.length ∨
      ∃ other, other ≠ text ∧ Matches separator inList pattern other := by
  induction matched with
  | done => exact .inl ⟨by simp [Plain], rfl⟩
  | @plain inList c pattern text stands _ ih =>
    rcases ih with ⟨plain, rfl⟩ | shorter | ⟨other, apart, also⟩
    · left
      refine ⟨?_, rfl⟩
      intro d member
      rcases List.mem_cons.mp member with rfl | later
      · exact operator_of_plain stands
      · exact plain d later
    · exact .inr (.inl (by simpa using shorter))
    · exact .inr (.inr ⟨c :: other, by simpa using apart, .plain stands also⟩)
  | @escaped inList c pattern text _ ih =>
    rcases ih with ⟨_, rfl⟩ | shorter | ⟨other, apart, also⟩
    · exact .inr (.inl (by simp))
    · exact .inr (.inl (by simp only [List.length_cons]; omega))
    · exact .inr (.inr ⟨c :: other, by simpa using apart, .escaped also⟩)
  | @star inList run pattern text apart later _ =>
    obtain ⟨c, other, _⟩ := exists_apart separator separator
    have longer : separator ∉ c :: run := by
      rw [List.mem_cons, not_or]
      exact ⟨other.symm, apart⟩
    refine .inr (.inr ⟨c :: run ++ text, ?_, .star longer later⟩)
    intro same
    have lengths := congrArg List.length same
    simp at lengths
  | @stars inList run pattern text later _ =>
    refine .inr (.inr ⟨'a' :: run ++ text, ?_, .stars later⟩)
    intro same
    have lengths := congrArg List.length same
    simp at lengths
  | @single inList c pattern text apart later _ =>
    obtain ⟨d, outside, other⟩ := exists_apart separator c
    exact .inr (.inr ⟨d :: text, by simpa using other, .single outside later⟩)
  | @oneOf inList content covered c pattern text written covers _ ih =>
    have filled := List.length_pos_iff.mpr written.filled
    rcases short_or_other ih with short | ⟨other, apart, also⟩
    · right
      left
      simp only [List.length_cons, List.length_append]
      omega
    · exact .inr (.inr ⟨c :: other, by simpa using apart, .oneOf written covers also⟩)
  | @alternatives inList pieces piece pattern first second member formed inside behind own later =>
    have within := length_le_join member
    rcases short_or_other own with short | ⟨other, apart, also⟩
    · rcases short_or_other later with shortBehind | ⟨other, apart, also⟩
      · right
        left
        simp only [List.length_cons, List.length_append]
        omega
      · exact .inr (.inr ⟨first ++ other, by simpa using apart, .alternatives member formed inside also⟩)
    · exact .inr (.inr ⟨other ++ second, by simpa using apart, .alternatives member formed also behind⟩)

/-- A pattern that matches itself alone has no operator. -/
theorem plain_of_alone (own : Matches separator inList pattern pattern)
    (alone : ∀ text, Matches separator inList pattern text → text = pattern) : Plain pattern := by
  rcases own.plain_or_other with ⟨plain, _⟩ | shorter | ⟨other, apart, also⟩
  · exact plain
  · exact absurd shorter (Nat.lt_irrefl _)
  · exact absurd (alone other also) apart

/-! Patterns that end in a separator and a star. -/

/-- The star takes the last segment, and what stands in front of the separator the others. An escape in front of it takes
the separator itself. -/
def TakesLast (separator : Char) (inList : Bool) (front text : List Char) : Prop :=
  ∃ lead last, text = lead ++ separator :: last ∧ separator ∉ last ∧
    (Matches separator inList front lead ∨
      ∃ shorter, front = shorter ++ ['\\'] ∧ Matches separator inList shorter lead)

theorem TakesLast.append {opening taken : List Char} (last : TakesLast separator inList front text)
    (step : ∀ {pattern text}, Matches separator inList pattern text →
      Matches separator inList (opening ++ pattern) (taken ++ text)) :
    TakesLast separator inList (opening ++ front) (taken ++ text) := by
  obtain ⟨lead, last, rfl, apart, matched | ⟨shorter, rfl, matched⟩⟩ := last
  · exact ⟨taken ++ lead, last, (List.append_assoc ..).symm, apart, .inl (step matched)⟩
  · exact ⟨taken ++ lead, last, (List.append_assoc ..).symm, apart,
      .inr ⟨opening ++ shorter, (List.append_assoc ..).symm, step matched⟩⟩

/-- An opening that reaches neither the separator nor the star is a part of what stands in front of them. -/
theorem cut_opening {opening : List Char} {c d : Char} (whole : opening ++ pattern = front ++ [c, d])
    (first : opening ≠ front ++ [c]) (second : opening ≠ front ++ [c, d]) :
    ∃ others, front = opening ++ others ∧ pattern = others ++ [c, d] := by
  rcases List.append_eq_append_iff.mp whole with ⟨others, inside, rest⟩ | ⟨others, reached, rest⟩
  · exact ⟨others, inside, rest⟩
  · match others, reached, rest with
    | [], reached, rest => exact ⟨[], by rw [reached, List.append_nil, List.append_nil], rest.symm⟩
    | [e], reached, rest =>
      rw [List.singleton_append, List.cons.injEq] at rest
      rw [rest.1] at first
      exact absurd reached first
    | e :: f :: others, reached, rest =>
      simp only [List.cons_append, List.cons.injEq, List.nil_eq, List.append_eq_nil_iff] at rest
      obtain ⟨rfl, rfl, rfl, _⟩ := rest
      exact absurd reached second

theorem ne_append_of_last {opening last : List Char} {c d : Char} (apart : c ≠ d) :
    opening ++ [c] ≠ last ++ [d] := by
  intro same
  exact apart (List.append_inj' same rfl |>.2 |> List.cons.inj |>.1)

theorem cut_ordinary {opening : List Char} {c d e : Char} (whole : opening ++ [e] ++ pattern = front ++ [c, d])
    (first : e ≠ c) (second : e ≠ d) : ∃ others, front = opening ++ [e] ++ others ∧ pattern = others ++ [c, d] := by
  apply cut_opening whole (ne_append_of_last first)
  rw [show front ++ [c, d] = front ++ [c] ++ [d] by simp]
  exact ne_append_of_last second

theorem Matches.takesLast (matched : Matches separator inList pattern text) (ordinary : isOperator separator = false)
    (bracket : separator ≠ ']') (whole : pattern = front ++ [separator, '*']) :
    TakesLast separator inList front text := by
  have apart : ∀ c, isOperator c = true → c ≠ separator := by
    rintro c operator rfl
    rw [ordinary] at operator
    cases operator
  have short : ∀ (front opening : List Char) (c : Char), opening.all isOperator = true →
      opening ++ [c] ≠ front ++ [separator, '*'] := by
    intro front opening c operators same
    rw [show front ++ [separator, '*'] = front ++ [separator] ++ ['*'] by simp] at same
    have inside : separator ∈ opening := by
      rw [(List.append_inj' same rfl).1]
      simp
    exact apart _ (List.all_eq_true.mp operators _ inside) rfl
  induction matched generalizing front with
  | done => simp at whole
  | @plain inList c pattern text stands later ih =>
    cases front with
    | nil =>
      rw [List.nil_append, List.cons.injEq] at whole
      obtain ⟨rfl, rfl⟩ := whole
      exact ⟨[], text, rfl, matches_star.mp later, .inl .done⟩
    | cons d front =>
      rw [List.cons_append, List.cons.injEq] at whole
      obtain ⟨rfl, whole⟩ := whole
      exact @TakesLast.append _ _ _ _ [c] [c] (ih whole) (.plain stands)
  | @escaped inList c pattern text later ih =>
    by_cases takes : ['\\', c] = front ++ [separator]
    · have ends : ['\\'] ++ [c] = front ++ [separator] := takes
      have parts := List.append_inj' ends rfl
      rw [← parts.1] at whole
      simp only [List.cons_append, List.nil_append, List.cons.injEq] at whole
      obtain ⟨_, rfl, rfl⟩ := whole
      exact ⟨[], text, rfl, matches_star.mp later, .inr ⟨[], parts.1.symm, .done⟩⟩
    · obtain ⟨others, rfl, rest⟩ := @cut_opening _ _ ['\\', c] _ _ whole takes (short _ ['\\'] c rfl)
      exact @TakesLast.append _ _ _ _ ['\\', c] [c] (ih rest) .escaped
  | @star inList run pattern text outside later ih =>
    obtain ⟨others, rfl, rest⟩ := @cut_opening _ _ ['*'] _ _ whole (@ne_append_of_last [] _ _ _ (apart _ rfl))
      (short _ [] '*' rfl)
    exact @TakesLast.append _ _ _ _ ['*'] run (ih rest) (.star outside)
  | @stars inList run pattern text later ih =>
    obtain ⟨others, rfl, rest⟩ := @cut_opening _ _ ['*', '*'] _ _ whole (@ne_append_of_last ['*'] _ _ _ (apart _ rfl))
      (short _ ['*'] '*' rfl)
    exact @TakesLast.append _ _ _ _ ['*', '*'] run (ih rest) .stars
  | @single inList c pattern text outside later ih =>
    obtain ⟨others, rfl, rest⟩ := @cut_ordinary _ _ [] _ _ '?' whole (apart _ rfl) (by decide)
    exact @TakesLast.append _ _ _ _ ['?'] [c] (ih rest) (.single outside)
  | @oneOf inList content covered c pattern text written covers later ih =>
    have step : ∀ {pattern text}, Matches separator inList pattern text →
        Matches separator inList ('[' :: content ++ [']'] ++ pattern) ([c] ++ text) := by
      intro pattern text matched
      rw [List.append_assoc]
      exact .oneOf written covers matched
    obtain ⟨others, rfl, rest⟩ := @cut_ordinary _ _ ('[' :: content) separator '*' ']' (by simpa using whole)
      bracket.symm (by decide)
    exact (ih rest).append step
  | @alternatives inList pieces piece pattern first second member formed inside behind own later =>
    have step : ∀ {pattern text}, Matches separator inList pattern text →
        Matches separator inList ('\x7b' :: join [','] pieces ++ ['\x7d'] ++ pattern) (first ++ text) := by
      intro pattern text matched
      rw [List.append_assoc]
      exact .alternatives member formed inside matched
    obtain ⟨others, rfl, rest⟩ := @cut_ordinary _ _ ('\x7b' :: join [','] pieces) separator '*' '\x7d'
      (by simpa using whole) (apart _ rfl) (by decide)
    exact (later rest).append step

/-- A star behind a separator that matches the last segments behind one text alone stands behind no operator. -/
theorem plain_of_segments (ordinary : isOperator separator = false) (bracket : separator ≠ ']')
    (own : Matches separator false (front ++ [separator, '*']) text)
    (alone : ∀ text, Matches separator false (front ++ [separator, '*']) text →
      ∃ last, separator ∉ last ∧ text = front ++ separator :: last) : Plain front := by
  have only : ∀ {lead}, Matches separator false (front ++ [separator, '*']) (lead ++ [separator]) → lead = front := by
    intro lead matched
    obtain ⟨last, apart, same⟩ := alone _ matched
    exact (append_cons_unique List.not_mem_nil apart same).1
  have star : Matches separator false ['*'] [] := matches_star.mpr List.not_mem_nil
  obtain ⟨lead, last, rfl, apart, taken⟩ := own.takesLast ordinary bracket rfl
  obtain ⟨behind, outside, same⟩ := alone _ own
  obtain ⟨rfl, _⟩ := append_cons_unique apart outside same
  rcases taken with matched | ⟨shorter, escape, matched⟩
  · refine plain_of_alone matched fun other also => only (also.append ?_)
    exact .plain (by simp [isPlain, ordinary]) star
  · exfalso
    have longer : lead.length = shorter.length + 1 := by
      rw [escape, List.length_append]
      rfl
    rcases matched.plain_or_other with ⟨_, rfl⟩ | short | ⟨other, different, also⟩
    · omega
    · omega
    · refine different (only ?_)
      rw [escape, List.append_assoc]
      exact also.append (.escaped star)

end Patterns

end Glob
