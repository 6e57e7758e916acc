import Mathlib.Data.List.AList
import Mathlib.Data.Set.Basic

namespace Keyed

variable {κ ν γ : Type} [DecidableEq κ] (content : ν → Set γ)

/-- Everything that some entry of the map contributes. -/
def union (map : AList (fun _ : κ => ν)) : Set γ :=
  {item | ∃ key value, map.lookup key = some value ∧ item ∈ content value}

def unionExcept (map : AList (fun _ : κ => ν)) (key : κ) : Set γ :=
  {item | ∃ other value, other ≠ key ∧ map.lookup other = some value ∧ item ∈ content value}

variable {content} {map first second : AList (fun _ : κ => ν)} {key : κ} {value : ν}

theorem unionExcept_subset : unionExcept content map key ⊆ union content map := by
  intro item present
  obtain ⟨other, value, _, found, member⟩ := present
  exact ⟨other, value, found, member⟩

theorem union_congr (same : ∀ name, first.lookup name = second.lookup name) :
    union content first = union content second := by
  ext item
  simp only [union, Set.mem_ofPred_eq, same]

theorem unionExcept_congr (same : ∀ name, name ≠ key → first.lookup name = second.lookup name) :
    unionExcept content first key = unionExcept content second key := by
  ext item
  constructor
  · intro present
    obtain ⟨other, value, differs, found, member⟩ := present
    exact ⟨other, value, differs, same other differs ▸ found, member⟩
  · intro present
    obtain ⟨other, value, differs, found, member⟩ := present
    exact ⟨other, value, differs, (same other differs).symm ▸ found, member⟩

theorem union_of_present (present : map.lookup key = some value) :
    union content map = content value ∪ unionExcept content map key := by
  ext item
  constructor
  · intro present
    obtain ⟨other, found, at_other, member⟩ := present
    by_cases same : other = key
    · subst other
      rw [present] at at_other
      cases at_other
      exact Or.inl member
    · exact Or.inr ⟨other, found, same, at_other, member⟩
  · intro present
    rcases present with member | member
    · exact ⟨key, value, present, member⟩
    · exact unionExcept_subset member

theorem union_of_absent (absent : map.lookup key = none) :
    union content map = unionExcept content map key := by
  apply Set.Subset.antisymm _ unionExcept_subset
  intro item present
  obtain ⟨other, found, at_other, member⟩ := present
  refine ⟨other, found, ?_, at_other, member⟩
  intro same
  rw [same, absent] at at_other
  cases at_other

theorem union_insert :
    union content (map.insert key value) = content value ∪ unionExcept content map key := by
  rw [union_of_present (AList.lookup_insert map)]
  congr 1
  exact unionExcept_congr fun name differs => AList.lookup_insert_ne differs

end Keyed
