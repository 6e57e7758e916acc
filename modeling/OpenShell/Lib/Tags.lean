import Mathlib.Data.List.Perm.Subperm

namespace Tags

/-! Several streams written into one list: each item stands behind the tag of its stream. -/

variable {τ α β : Type} [DecidableEq τ] {tag : τ} {items : List (τ × α)}

/-- The stream of one tag. -/
def tagged (tag : τ) (items : List (τ × α)) : List α := (items.filter fun item => item.1 = tag).map Prod.snd

@[simp] theorem tagged_nil : tagged tag ([] : List (τ × α)) = [] := rfl

@[simp] theorem tagged_append (first second : List (τ × α)) :
    tagged tag (first ++ second) = tagged tag first ++ tagged tag second := by
  unfold tagged
  rw [List.filter_append, List.map_append]

theorem tagged_cons (item : τ × α) :
    tagged tag (item :: items) = if item.1 = tag then item.2 :: tagged tag items else tagged tag items := by
  unfold tagged
  rw [List.filter_cons]
  split <;> simp_all

theorem tagged_map_tag (other : τ) (values : List α) :
    tagged tag (values.map (Prod.mk other)) = if other = tag then values else [] := by
  induction values with
  | nil => simp
  | cons value rest ih =>
    rw [List.map_cons, tagged_cons, ih]
    split <;> rfl

theorem tagged_flatMap (spread : α → List β) :
    tagged tag (items.flatMap fun item => (spread item.2).map (Prod.mk item.1)) = (tagged tag items).flatMap spread := by
  induction items with
  | nil => rfl
  | cons item rest ih =>
    rw [List.flatMap_cons, tagged_append, tagged_map_tag, ih, tagged_cons]
    split
    · rw [List.flatMap_cons]
    · rfl

theorem tagged_sublist : (tagged tag items).Sublist (items.map Prod.snd) := List.filter_sublist.map _

theorem mem_of_mem_tagged {value : α} (member : value ∈ tagged tag items) : (tag, value) ∈ items := by
  obtain ⟨item, kept, rfl⟩ := List.mem_map.mp member
  obtain ⟨inside, same⟩ := List.mem_filter.mp kept
  rwa [← of_decide_eq_true same]

/-- What holds along the list between items of one stream holds along that stream. -/
theorem pairwise_tagged {relation : α → α → Prop}
    (ordered : items.Pairwise fun earlier later => earlier.1 = later.1 → relation earlier.2 later.2) :
    (tagged tag items).Pairwise relation := by
  refine List.pairwise_map.mpr ((ordered.filter _).imp_of_mem ?_)
  intro earlier later first second related
  have one : earlier.1 = tag := of_decide_eq_true (List.mem_filter.mp first).2
  have other : later.1 = tag := of_decide_eq_true (List.mem_filter.mp second).2
  exact related (one.trans other.symm)

theorem count_tagged [DecidableEq α] (value : α) : (tagged tag items).count value = items.count (tag, value) := by
  induction items with
  | nil => rfl
  | cons item rest ih =>
    obtain ⟨other, held⟩ := item
    rw [tagged_cons, List.count_cons, ← ih]
    by_cases here : other = tag
    · simp [here, List.count_cons]
    · simp [here]

/-- What holds of each stream holds of all: nothing stands in the first list more often than in the second. -/
theorem subperm_of_tagged [DecidableEq α] {first second : List (τ × α)}
    (each : ∀ tag, (tagged tag first).Subperm (tagged tag second)) : first.Subperm second := by
  refine List.subperm_ext_iff.mpr ?_
  intro item _
  have within := (each item.1).count_le item.2
  rwa [count_tagged, count_tagged] at within

end Tags
