import Mathlib.Data.List.AList

/-! Counters by key that let in up to a limit and forget a key when nobody holds it any more. -/

namespace Counters

variable {κ : Type} [DecidableEq κ]

abbrev Counts (κ : Type) : Type := AList fun _ : κ => Nat

/-- The counter of a key is created when it is first asked for, whatever comes of it. -/
def enter (limit : Nat) (counts : Counts κ) (key : κ) : Bool × Counts κ :=
  let count := (counts.lookup key).getD 0
  if limit ≤ count then (false, counts.insert key count) else (true, counts.insert key (count + 1))

def release (counts : Counts κ) (key : κ) : Counts κ :=
  match counts.lookup key with
  | none => counts
  | some count => if count - 1 = 0 then counts.erase key else counts.insert key (count - 1)

/-- Each key is counted as often as it is held, and a key that nobody holds is not stored. -/
def Exact (counts : Counts κ) (holders : κ → Nat) : Prop :=
  ∀ key, counts.lookup key = if holders key = 0 then none else some (holders key)

variable {counts : Counts κ} {holders later : κ → Nat} {key : κ} {limit : Nat}

theorem exact_empty : Exact (∅ : Counts κ) fun _ => 0 := fun _ => AList.lookup_empty _

theorem Exact.count (exact : Exact counts holders) (key : κ) : (counts.lookup key).getD 0 = holders key := by
  rw [exact key]
  split
  · exact (‹holders key = 0›).symm
  · rfl

theorem Exact.nonzero (exact : Exact counts holders) (key : κ) : counts.lookup key ≠ some 0 := by
  rw [exact key]
  split
  · simp
  · intro zero
    exact ‹¬holders key = 0› (Option.some.inj zero)

theorem Exact.held (exact : Exact counts holders) (holds : 0 < holders key) :
    counts.lookup key = some (holders key) := by
  rw [exact key, if_neg (by omega)]

theorem Exact.eq_empty (exact : Exact counts holders) (unheld : ∀ key, holders key = 0) :
    counts = (∅ : Counts κ) := by
  have absent : ∀ key, counts.lookup key = none := fun key => by rw [exact key, if_pos (unheld key)]
  apply AList.ext
  rw [AList.empty_entries]
  apply List.eq_nil_iff_forall_not_mem.mpr
  rintro ⟨key, count⟩ member
  have found : counts.lookup key = some count := AList.mem_lookup_iff.mpr member
  rw [absent key] at found
  cases found

theorem Exact.insert (exact : Exact counts holders) {count : Nat} (positive : count ≠ 0) (here : later key = count)
    (elsewhere : ∀ other, other ≠ key → later other = holders other) : Exact (counts.insert key count) later := by
  intro other
  by_cases same : other = key
  · subst same
    rw [AList.lookup_insert, here, if_neg positive]
  · rw [AList.lookup_insert_ne same, elsewhere other same]
    exact exact other

theorem Exact.erase (exact : Exact counts holders) (here : later key = 0)
    (elsewhere : ∀ other, other ≠ key → later other = holders other) : Exact (counts.erase key) later := by
  intro other
  by_cases same : other = key
  · subst same
    rw [AList.lookup_erase, if_pos here]
  · rw [AList.lookup_erase_ne same, elsewhere other same]
    exact exact other

/-- The counters are exact, and no key is held more often than the limit. -/
structure Within (limit : Nat) (counts : Counts κ) (holders : κ → Nat) : Prop where
  exact : Exact counts holders
  limited : ∀ key, holders key ≤ limit

theorem Within.admitted (within : Within limit counts holders) (passed : (enter limit counts key).1 = true)
    (next : ∀ other, later other = holders other + if other = key then 1 else 0) :
    Within limit (enter limit counts key).2 later := by
  have here : later key = holders key + 1 := by rw [next key, if_pos rfl]
  have elsewhere : ∀ other, other ≠ key → later other = holders other := by
    intro other differ
    rw [next other, if_neg differ, Nat.add_zero]
  unfold enter at passed ⊢
  simp only [within.exact.count key] at passed ⊢
  by_cases full : limit ≤ holders key
  · rw [if_pos full] at passed
    cases passed
  · rw [if_neg full]
    refine ⟨within.exact.insert (Nat.succ_ne_zero _) here elsewhere, ?_⟩
    intro other
    by_cases same : other = key
    · subst same
      omega
    · rw [elsewhere other same]
      exact within.limited other

/-- A refusal meets a stored counter, so it stores none. -/
theorem Within.refused (within : Within limit counts holders) (positive : 0 < limit)
    (refused : (enter limit counts key).1 = false) : Within limit (enter limit counts key).2 holders := by
  unfold enter at refused ⊢
  simp only [within.exact.count key] at refused ⊢
  by_cases full : limit ≤ holders key
  · rw [if_pos full]
    exact ⟨within.exact.insert (by omega) rfl fun _ _ => rfl, within.limited⟩
  · rw [if_neg full] at refused
    cases refused

theorem Within.released (within : Within limit counts holders)
    (next : ∀ other, later other + (if other = key then 1 else 0) = holders other) :
    Within limit (release counts key) later := by
  have here : later key + 1 = holders key := by simpa using next key
  have elsewhere : ∀ other, other ≠ key → later other = holders other := by
    intro other differ
    simpa [differ] using next other
  refine ⟨?_, fun other => Nat.le_trans (Nat.le.intro (next other)) (within.limited other)⟩
  unfold release
  rw [within.exact.held (by omega)]
  simp only
  by_cases last : holders key - 1 = 0
  · rw [if_pos last]
    exact within.exact.erase (by omega) elsewhere
  · rw [if_neg last]
    exact within.exact.insert last (by omega) elsewhere

end Counters

/-- One entry of a list is replaced: what is counted changes by that entry alone. -/
theorem List.countP_set_add {α : Type} (counted : α → Bool) {items : List α} {position : Nat} {old : α} (new : α)
    (found : items[position]? = some old) :
    (items.set position new).countP counted + (if counted old then 1 else 0) =
      items.countP counted + if counted new then 1 else 0 := by
  obtain ⟨bound, rfl⟩ := List.getElem?_eq_some_iff.mp found
  rw [List.countP_set bound]
  have counts : (if counted items[position] = true then 1 else 0) ≤ items.countP counted :=
    List.boole_getElem_le_countP bound
  omega
