import Mathlib.Data.List.Forall2

namespace Results

variable {ε α β γ δ : Type}

theorem ok_of_bind {first : Except ε α} {next : α → Except ε β} {value : β}
    (reached : (first >>= next) = .ok value) : ∃ middle, first = .ok middle ∧ next middle = .ok value := by
  cases first with
  | error => cases reached
  | ok middle => exact ⟨middle, rfl, reached⟩

theorem ok_of_map {outcome : Except ε α} {change : α → β} {value : β} (mapped : outcome.map change = .ok value) :
    ∃ before, outcome = .ok before ∧ change before = value := by
  cases outcome with
  | error => cases mapped
  | ok before => exact ⟨before, rfl, Except.ok.inj mapped⟩

theorem toOption_bind (first : Except ε α) (next : α → Except ε β) :
    (first >>= next).toOption = first.toOption.bind fun value => (next value).toOption := by
  cases first <;> rfl

theorem toOption_congr {first second : Except ε α} (same : ∀ value, first = .ok value ↔ second = .ok value) :
    first.toOption = second.toOption := by
  cases first with
  | ok value =>
    rw [(same value).mp rfl]
  | error error =>
    cases second with
    | error other => rfl
    | ok value => cases (same value).mpr rfl

theorem forall₂_of_mapM {f : α → Except ε β} {items : List α} {results : List β}
    (ran : items.mapM f = .ok results) : List.Forall₂ (fun item result => f item = .ok result) items results := by
  induction items generalizing results with
  | nil =>
    cases ran
    exact .nil
  | cons item items ih =>
    rw [List.mapM_cons] at ran
    obtain ⟨result, here, ran⟩ := ok_of_bind ran
    obtain ⟨later, there, ran⟩ := ok_of_bind ran
    cases ran
    exact .cons here (ih there)

theorem mapM_of_forall₂ {f : α → Except ε β} {items : List α} {results : List β}
    (each : List.Forall₂ (fun item result => f item = .ok result) items results) : items.mapM f = .ok results := by
  induction each with
  | nil => rfl
  | cons here _ ih =>
    rw [List.mapM_cons, here, ih]
    rfl

theorem exists_of_forall₂ {related : α → β → Prop} {items : List α} {results : List β} {result : β}
    (each : List.Forall₂ related items results) (member : result ∈ results) : ∃ item ∈ items, related item result := by
  induction each with
  | nil => cases member
  | @cons item _ items _ here _ ih =>
    rcases List.mem_cons.mp member with same | later
    · rw [same]
      exact ⟨item, List.mem_cons_self .., here⟩
    · obtain ⟨found, inside, holds⟩ := ih later
      exact ⟨found, List.mem_cons_of_mem _ inside, holds⟩

theorem ne_nil_of_forall₂ {related : α → β → Prop} {items : List α} {results : List β}
    (each : List.Forall₂ related items results) (filled : items ≠ []) : results ≠ [] := by
  intro empty
  rw [empty] at each
  cases each
  exact filled rfl

theorem any_toList_append (value : Option α) (values : List α) (holds : α → Bool) :
    (value.toList ++ values).any holds = (value.any holds || values.any holds) := by
  cases value <;> simp

theorem filterMap_cons_toList (f : α → Option β) (item : α) (items : List α) :
    (item :: items).filterMap f = (f item).toList ++ items.filterMap f := by
  rw [List.filterMap_cons]
  cases f item <;> rfl

/-! Two runs of one computation. -/

/-- Where both computations succeed, whoever sees only `view` of the results cannot tell them apart. -/
def Agree (view : α → γ) (first second : Except ε α) : Prop :=
  ∀ one two, first = .ok one → second = .ok two → view one = view two

namespace Agree

variable {view : α → γ} {first second : Except ε α}

theorem ok {one two : α} (same : view one = view two) : Agree view (.ok one : Except ε α) (.ok two) := by
  intro _ _ ran other
  cases ran
  cases other
  exact same

theorem error_left {problem : ε} : Agree view (.error problem) second := fun _ _ failed _ => nomatch failed

theorem error_right {problem : ε} : Agree view first (.error problem) := fun _ _ _ failed => nomatch failed

theorem bind {through : α → γ} {shown : β → δ} {next other : α → Except ε β}
    (before : Agree through first second)
    (after : ∀ one two, through one = through two → Agree shown (next one) (other two)) :
    Agree shown (first >>= next) (second >>= other) := by
  intro one two ran ranOther
  obtain ⟨middle, reached, ends⟩ := ok_of_bind ran
  obtain ⟨middleOther, reachedOther, endsOther⟩ := ok_of_bind ranOther
  exact after middle middleOther (before _ _ reached reachedOther) one two ends endsOther

theorem mapM {shown : β → δ} {f g : α → Except ε β} {items : List α}
    (each : ∀ item ∈ items, Agree shown (f item) (g item)) :
    Agree (List.map shown) (items.mapM f) (items.mapM g) := by
  induction items with
  | nil => exact ok rfl
  | cons item items ih =>
    rw [List.mapM_cons, List.mapM_cons]
    apply bind (each item (List.mem_cons_self ..))
    intro one two same
    apply bind (ih fun later member => each later (List.mem_cons_of_mem _ member))
    intro ones twos sameRest
    apply ok
    rw [List.map_cons, List.map_cons, same, sameRest]

end Agree

end Results
