import Mathlib.Order.Basic

namespace Additions

variable {α : Type} [DecidableEq α] {excluded held items : List α}

/-- Each item in turn is put behind what is held, unless it is held already or excluded. -/
def addMissing (excluded held items : List α) : List α :=
  items.foldl (fun held item => if item ∈ held ∨ item ∈ excluded then held else held ++ [item]) held

theorem addMissing_cons (excluded held : List α) (item : α) (items : List α) :
    addMissing excluded held (item :: items) =
      if item ∈ held ∨ item ∈ excluded then addMissing excluded held items
      else addMissing excluded (held ++ [item]) items := by
  unfold addMissing
  rw [List.foldl_cons]
  split <;> rfl

/-- What is added was missing and is not excluded. -/
theorem addMissing_eq_append (excluded held items : List α) :
    ∃ added, addMissing excluded held items = held ++ added ∧
      ∀ item ∈ added, item ∈ items ∧ item ∉ held ∧ item ∉ excluded := by
  induction items generalizing held with
  | nil =>
    refine ⟨[], (List.append_nil _).symm, ?_⟩
    intro item member
    cases member
  | cons first items ih =>
    rw [addMissing_cons]
    split
    · obtain ⟨added, whole, fresh⟩ := ih held
      refine ⟨added, whole, ?_⟩
      intro item member
      obtain ⟨inside, missing⟩ := fresh item member
      exact ⟨List.mem_cons_of_mem _ inside, missing⟩
    · rename_i missing
      obtain ⟨added, whole, fresh⟩ := ih (held ++ [first])
      refine ⟨first :: added, by rw [whole, List.append_assoc, List.singleton_append], ?_⟩
      intro item member
      rcases List.mem_cons.mp member with rfl | later
      · exact ⟨List.mem_cons_self, not_or.mp missing⟩
      · obtain ⟨inside, unheld, allowed⟩ := fresh item later
        exact ⟨List.mem_cons_of_mem _ inside, fun before => unheld (List.mem_append_left _ before), allowed⟩

theorem prefix_addMissing : held <+: addMissing excluded held items := by
  obtain ⟨added, whole, _⟩ := addMissing_eq_append excluded held items
  exact ⟨added, whole.symm⟩

theorem nodup_addMissing (nodup : held.Nodup) : (addMissing excluded held items).Nodup := by
  induction items generalizing held with
  | nil => exact nodup
  | cons first items ih =>
    rw [addMissing_cons]
    split
    · exact ih nodup
    · rename_i missing
      refine ih (List.nodup_append.mpr ⟨nodup, List.pairwise_singleton _ first, ?_⟩)
      intro item before other last same
      rw [List.mem_singleton.mp last] at same
      exact missing (.inl (same ▸ before))

theorem mem_addMissing {item : α} :
    item ∈ addMissing excluded held items ↔ item ∈ held ∨ item ∈ items ∧ item ∉ excluded := by
  induction items generalizing held with
  | nil => simp [addMissing]
  | cons first items ih =>
    rw [addMissing_cons]
    split
    · rename_i present
      rw [ih, List.mem_cons]
      constructor
      · intro either
        rcases either with before | ⟨later, allowed⟩
        · exact .inl before
        · exact .inr ⟨.inr later, allowed⟩
      · intro either
        rcases either with before | ⟨rfl | later, allowed⟩
        · exact .inl before
        · exact .inl (present.resolve_right allowed)
        · exact .inr ⟨later, allowed⟩
    · rename_i missing
      rw [ih, List.mem_append, List.mem_singleton, List.mem_cons]
      constructor
      · intro either
        rcases either with (before | rfl) | ⟨later, allowed⟩
        · exact .inl before
        · exact .inr ⟨.inl rfl, (not_or.mp missing).2⟩
        · exact .inr ⟨.inr later, allowed⟩
      · intro either
        rcases either with before | ⟨rfl | later, allowed⟩
        · exact .inl (.inl before)
        · exact .inl (.inr rfl)
        · exact .inr ⟨later, allowed⟩

theorem addMissing_eq_self_iff : addMissing excluded held items = held ↔ ∀ item ∈ items, item ∈ held ∨ item ∈ excluded := by
  constructor
  · intro same item member
    by_cases barred : item ∈ excluded
    · exact .inr barred
    · have inside := (@mem_addMissing _ _ excluded held items item).mpr (.inr ⟨member, barred⟩)
      rw [same] at inside
      exact .inl inside
  · intro present
    obtain ⟨added, whole, fresh⟩ := addMissing_eq_append excluded held items
    have none_added : added = [] := by
      rw [List.eq_nil_iff_forall_not_mem]
      intro item member
      obtain ⟨inside, unheld, allowed⟩ := fresh item member
      exact (present item inside).elim unheld allowed
    rw [whole, none_added, List.append_nil]

/-! Items that count as held when one with their key is. -/

section Keyed

variable {β : Type} {key : β → α} {known kept more : List β}

def addMissingBy (key : β → α) (excluded held items : List β) : List β :=
  items.foldl
    (fun held item => if key item ∈ held.map key ∨ key item ∈ excluded.map key then held else held ++ [item]) held

theorem map_addMissingBy :
    (addMissingBy key known kept more).map key = addMissing (known.map key) (kept.map key) (more.map key) := by
  unfold addMissingBy
  induction more generalizing kept with
  | nil => rfl
  | cons first more ih =>
    rw [List.foldl_cons, List.map_cons, addMissing_cons]
    split
    · exact ih
    · rw [ih, List.map_append, List.map_singleton]

theorem mem_of_mem_addMissingBy {item : β} (member : item ∈ addMissingBy key known kept more) :
    item ∈ kept ∨ item ∈ more := by
  unfold addMissingBy at member
  induction more generalizing kept with
  | nil => exact .inl member
  | cons first more ih =>
    rw [List.foldl_cons] at member
    split at member
    · exact (ih member).imp_right (List.mem_cons_of_mem _)
    · rcases ih member with before | after
      · rcases List.mem_append.mp before with old | own
        · exact .inl old
        · exact .inr (List.mem_singleton.mp own ▸ List.mem_cons_self)
      · exact .inr (List.mem_cons_of_mem _ after)

/-- From nothing, the items are held but for those with the key of an excluded one, and no key is held twice. -/
theorem addMissingBy_spec (key : β → α) (known more : List β) :
    ((addMissingBy key known [] more).map key).Nodup ∧
      (∀ item ∈ addMissingBy key known [] more, item ∈ more ∧ ∀ other ∈ known, key item ≠ key other) ∧
      ∀ item ∈ more, (∃ held ∈ addMissingBy key known [] more, key held = key item) ∨
        ∃ other ∈ known, key other = key item := by
  have keys := @map_addMissingBy _ _ _ key known [] more
  refine ⟨keys ▸ nodup_addMissing List.nodup_nil, ?_, ?_⟩
  · intro item member
    refine ⟨(mem_of_mem_addMissingBy member).resolve_left List.not_mem_nil, ?_⟩
    intro other excluded same
    have held := List.mem_map_of_mem (f := key) member
    rw [keys, mem_addMissing] at held
    have apart := (held.resolve_left List.not_mem_nil).2
    exact apart (same ▸ List.mem_map_of_mem excluded)
  · intro item member
    by_cases barred : key item ∈ known.map key
    · exact .inr (List.mem_map.mp barred)
    · have held : key item ∈ (addMissingBy key known [] more).map key := by
        rw [keys, mem_addMissing]
        exact .inr ⟨List.mem_map_of_mem member, barred⟩
      exact .inl (List.mem_map.mp held)

end Keyed

/-- The same with a flag that tells whether something was added. -/
def addFlagged (excluded : List α) (state : List α × Bool) (item : α) : List α × Bool :=
  if item ∈ state.1 ∨ item ∈ excluded then state else (state.1 ++ [item], true)

theorem foldl_addFlagged (excluded held items : List α) (flag : Bool) :
    items.foldl (addFlagged excluded) (held, flag) =
      (addMissing excluded held items, flag || decide (addMissing excluded held items ≠ held)) := by
  induction items generalizing held flag with
  | nil => simp [addMissing]
  | cons first items ih =>
    rw [List.foldl_cons, addMissing_cons, addFlagged]
    split
    · exact ih held flag
    · rw [ih]
      obtain ⟨added, whole, _⟩ := addMissing_eq_append excluded (held ++ [first]) items
      have longer : addMissing excluded (held ++ [first]) items ≠ held := by
        intro same
        have lengths := congrArg List.length (whole.symm.trans same)
        simp only [List.length_append, List.length_singleton] at lengths
        omega
      simp only [longer, ne_eq, not_false_eq_true, decide_true, Bool.or_true, Bool.true_or]

/-- Nothing is missing the second time, also if more is held and excluded by then. -/
theorem addMissing_again {more : List α} (kept : excluded ⊆ more) :
    addMissing more (addMissing excluded held items) items = addMissing excluded held items := by
  rw [addMissing_eq_self_iff]
  intro item member
  by_cases barred : item ∈ excluded
  · exact .inr (kept barred)
  · exact .inl (mem_addMissing.mpr (.inr ⟨member, barred⟩))

end Additions
