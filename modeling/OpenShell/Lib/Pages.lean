import Mathlib.Data.List.Nodup
import Mathlib.Order.Lattice

namespace Pages

/-! The first page of a table in the order of a rank that tells its rows apart. -/

variable {ρ κ : Type} [LinearOrder κ]

def sorted (rank : ρ → κ) (rows : List ρ) : List ρ :=
  rows.mergeSort fun first second => rank first ≤ rank second

/-- How many rows come before a row of this rank. -/
def earlier (rank : ρ → κ) (rows : List ρ) (bound : κ) : Nat := rows.countP fun row => rank row < bound

variable {rank : ρ → κ} {rows : List ρ}

theorem sorted_perm (rank : ρ → κ) (rows : List ρ) : (sorted rank rows).Perm rows := List.mergeSort_perm _ _

theorem mem_sorted {row : ρ} : row ∈ sorted rank rows ↔ row ∈ rows := (sorted_perm rank rows).mem_iff

theorem sorted_strict (distinct : (rows.map rank).Nodup) :
    (sorted rank rows).Pairwise fun first second => rank first < rank second := by
  have ordered : (sorted rank rows).Pairwise fun first second => decide (rank first ≤ rank second) = true :=
    List.pairwise_mergeSort (fun first second third below above => by
        simp only [decide_eq_true_eq] at below above ⊢
        exact below.trans above)
      (fun first second => by simpa using le_total (rank first) (rank second)) _
  have apart : (sorted rank rows).Pairwise fun first second => rank first ≠ rank second :=
    List.pairwise_map.mp (((sorted_perm rank rows).map rank).nodup_iff.mpr distinct)
  exact (ordered.and apart).imp fun both => lt_of_le_of_ne (by simpa using both.1) both.2

theorem mem_take_iff_of_strict {list : List ρ} (strict : list.Pairwise fun first second => rank first < rank second)
    {row : ρ} (member : row ∈ list) (limit : Nat) :
    row ∈ list.take limit ↔ earlier rank list (rank row) < limit := by
  obtain ⟨before, after, rfl⟩ := List.append_of_mem member
  obtain ⟨-, rest, below⟩ := List.pairwise_append.mp strict
  have above : ∀ other ∈ after, rank row < rank other := (List.pairwise_cons.mp rest).1
  have count : earlier rank (before ++ row :: after) (rank row) = before.length := by
    have first : before.countP (fun other => rank other < rank row) = before.length :=
      List.countP_eq_length.mpr fun other otherIn => decide_eq_true (below other otherIn row List.mem_cons_self)
    have last : after.countP (fun other => rank other < rank row) = 0 :=
      List.countP_eq_zero.mpr fun other otherIn => by simpa using (above other otherIn).le
    rw [earlier, List.countP_append, List.countP_cons, first, last]
    simp
  rw [count]
  constructor
  · intro taken
    by_contra beyond
    rw [List.take_append_of_le_length (by omega)] at taken
    exact lt_irrefl _ (below row (List.mem_of_mem_take taken) row List.mem_cons_self)
  · intro within
    rw [List.take_append, List.mem_append]
    right
    obtain ⟨more, same⟩ : ∃ more, limit - before.length = more + 1 := ⟨limit - before.length - 1, by omega⟩
    rw [same, List.take_succ_cons]
    exact List.mem_cons_self

theorem earlier_sorted (bound : κ) : earlier rank (sorted rank rows) bound = earlier rank rows bound :=
  (sorted_perm rank rows).countP_eq _

/-- A row is on the first page when fewer rows than the page holds come before it. -/
theorem mem_page_iff (distinct : (rows.map rank).Nodup) {row : ρ} (member : row ∈ rows) (limit : Nat) :
    row ∈ (sorted rank rows).take limit ↔ earlier rank rows (rank row) < limit := by
  rw [mem_take_iff_of_strict (sorted_strict distinct) (mem_sorted.mpr member), earlier_sorted]

end Pages
