import Mathlib.Data.List.MinMax
import Mathlib.Data.List.Nodup

namespace Relational

/-- A table whose rows are told apart by a key: the uniqueness constraint is part of the value. -/
structure Table {ρ κ : Type} (key : ρ → κ) where
  rows : List ρ
  unique : (rows.map key).Nodup

namespace Table

variable {ρ κ : Type} {key : ρ → κ}

instance : Membership ρ (Table key) where
  mem table row := row ∈ table.rows

theorem mem_rows {table : Table key} {row : ρ} : row ∈ table ↔ row ∈ table.rows := Iff.rfl

def empty : Table key := ⟨[], by simp⟩

theorem eq_of_key {table : Table key} {first second : ρ} (firstIn : first ∈ table)
    (secondIn : second ∈ table) (same : key first = key second) : first = second :=
  List.inj_on_of_nodup_map table.unique firstIn secondIn same

section Lookup

variable [DecidableEq κ]

def lookup (table : Table key) (wanted : κ) : Option ρ :=
  table.rows.find? (fun row => key row = wanted)

theorem lookup_some {table : Table key} {wanted : κ} {row : ρ} :
    table.lookup wanted = some row ↔ row ∈ table ∧ key row = wanted := by
  constructor
  · intro found
    refine ⟨List.mem_of_find?_eq_some found, ?_⟩
    simpa using List.find?_some found
  · intro present
    obtain ⟨member, rfl⟩ := present
    unfold lookup
    cases found : table.rows.find? (fun other => key other = key row) with
    | none =>
      have := List.find?_eq_none.mp found row member
      simp at this
    | some other =>
      have same : key other = key row := by simpa using List.find?_some found
      rw [table.eq_of_key (List.mem_of_find?_eq_some found) member same]

theorem lookup_none {table : Table key} {wanted : κ} :
    table.lookup wanted = none ↔ ∀ row ∈ table, key row ≠ wanted := by
  unfold lookup
  rw [List.find?_eq_none]
  exact forall₂_congr fun row _ => by simp

def insert (table : Table key) (row : ρ) : Option (Table key) :=
  if free : key row ∉ table.rows.map key then
    some ⟨table.rows ++ [row], by
      rw [List.map_append]
      exact List.nodup_append.mpr ⟨table.unique, by simp, by
        intro first firstIn second secondIn
        rw [List.map_singleton, List.mem_singleton] at secondIn
        subst secondIn
        exact fun same => free (same ▸ firstIn)⟩⟩
  else none

theorem insert_some {table result : Table key} {row : ρ} (inserted : table.insert row = some result) :
    result.rows = table.rows ++ [row] ∧ ∀ other ∈ table, key other ≠ key row := by
  unfold insert at inserted
  split at inserted
  · rename_i free
    cases inserted
    refine ⟨rfl, fun other member same => free ?_⟩
    exact List.mem_map.mpr ⟨other, member, same⟩
  · cases inserted

theorem insert_none {table : Table key} {row : ρ} :
    table.insert row = none ↔ ∃ other ∈ table, key other = key row := by
  unfold insert
  split
  · rename_i free
    simp only [reduceCtorEq, false_iff]
    intro taken
    obtain ⟨other, member, same⟩ := taken
    exact free (List.mem_map.mpr ⟨other, member, same⟩)
  · rename_i taken
    simpa [mem_rows] using taken

end Lookup

/-- `UPDATE … SET … WHERE`: the assignment leaves the keys of the selected rows alone. -/
def update (table : Table key) (selected : ρ → Bool) (assign : ρ → ρ)
    (keeps : ∀ row, selected row = true → key (assign row) = key row) : Table key :=
  ⟨table.rows.map (fun row => if selected row then assign row else row), by
    rw [List.map_map]
    have same : (key ∘ fun row => if selected row then assign row else row) = key := by
      funext row
      simp only [Function.comp_apply]
      split
      · rename_i chosen
        exact keeps row chosen
      · rfl
    rw [same]
    exact table.unique⟩

theorem mem_update {table : Table key} {selected : ρ → Bool} {assign : ρ → ρ}
    {keeps : ∀ row, selected row = true → key (assign row) = key row} {row : ρ} :
    row ∈ table.update selected assign keeps ↔
      ∃ old ∈ table, row = if selected old then assign old else old := by
  simp only [mem_rows, update, List.mem_map]
  exact exists_congr fun old => and_congr_right fun _ => eq_comm

theorem lookup_update [DecidableEq κ] {table : Table key} {selected : ρ → Bool} {assign : ρ → ρ}
    {keeps : ∀ row, selected row = true → key (assign row) = key row} (wanted : κ) :
    (table.update selected assign keeps).lookup wanted =
      (table.lookup wanted).map fun row => if selected row then assign row else row := by
  have sameKey : ∀ row, key (if selected row then assign row else row) = key row := by
    intro row
    split
    · rename_i chosen
      exact keeps row chosen
    · rfl
  unfold lookup update
  rw [List.find?_map]
  congr 2
  funext row
  simp only [Function.comp_apply, sameKey]

def delete (table : Table key) (selected : ρ → Bool) : Table key :=
  ⟨table.rows.filter (fun row => !selected row),
    table.unique.sublist (List.filter_sublist.map key)⟩

def latest (table : Table key) (selected : ρ → Bool) (rank : ρ → Nat) : Option ρ :=
  (table.rows.filter selected).argmax rank

theorem latest_none {table : Table key} {selected : ρ → Bool} {rank : ρ → Nat} :
    table.latest selected rank = none ↔ ∀ row ∈ table, selected row = false := by
  unfold latest
  rw [List.argmax_eq_none, List.filter_eq_nil_iff]
  exact forall₂_congr fun row _ => by simp

theorem latest_some {table : Table key} {selected : ρ → Bool} {rank : ρ → Nat} {row : ρ}
    (found : table.latest selected rank = some row) :
    row ∈ table ∧ selected row = true ∧ ∀ other ∈ table, selected other = true → rank other ≤ rank row := by
  have member := List.mem_filter.mp (List.argmax_mem found)
  refine ⟨member.1, member.2, fun other otherIn chosen => ?_⟩
  exact List.le_of_mem_argmax (List.mem_filter.mpr ⟨otherIn, chosen⟩) found

theorem latest_of_greatest {table : Table key} {selected : ρ → Bool} {rank : ρ → Nat} {row : ρ}
    (member : row ∈ table) (chosen : selected row = true)
    (greatest : ∀ other ∈ table, selected other = true → other ≠ row → rank other < rank row) :
    table.latest selected rank = some row := by
  cases found : table.latest selected rank with
  | none => simp [latest_none.mp found row member] at chosen
  | some other =>
    obtain ⟨otherIn, otherChosen, bound⟩ := latest_some found
    by_cases same : other = row
    · rw [same]
    · have below := greatest other otherIn otherChosen same
      have above := bound row member chosen
      omega

theorem argmax_map {rank : ρ → Nat} {change : ρ → ρ} (same : ∀ row, rank (change row) = rank row)
    (rows : List ρ) : (rows.map change).argmax rank = (rows.argmax rank).map change := by
  induction rows with
  | nil => rfl
  | cons row rest ih =>
    rw [List.map_cons, List.argmax_cons, List.argmax_cons, ih]
    cases rest.argmax rank with
    | none => rfl
    | some other =>
      simp only [Option.map_some, same]
      split <;> rfl

theorem latest_update {table : Table key} {selected : ρ → Bool} {assign : ρ → ρ} {chosen : ρ → Bool}
    {rank : ρ → Nat} (keeps : ∀ row, selected row = true → key (assign row) = key row)
    (sameChoice : ∀ row, chosen (if selected row then assign row else row) = chosen row)
    (sameRank : ∀ row, rank (if selected row then assign row else row) = rank row) :
    (table.update selected assign keeps).latest chosen rank =
      (table.latest chosen rank).map fun row => if selected row then assign row else row := by
  unfold latest update
  rw [List.filter_map, argmax_map sameRank]
  congr 2
  exact List.filter_congr fun row _ => sameChoice row

end Table

end Relational
