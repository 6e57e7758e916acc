import Mathlib.Data.List.Basic
import Mathlib.Data.List.Nodup
import Mathlib.Data.List.Perm.Subperm
import Mathlib.Order.Defs.PartialOrder

/-! Forests that are given by the children of each node: the walk in breadth, and the way back up. -/

namespace Forest

variable {α : Type} (children : α → List α)

/-- The nodes that are so many steps under the root. -/
def level (root : α) : Nat → List α
  | 0 => [root]
  | depth + 1 => (level root depth).flatMap children

/-- The walk takes the nodes in line, and puts the children of each at the end of the line. -/
def walk : Nat → List α → Option (List α)
  | _, [] => some []
  | 0, _ :: _ => none
  | fuel + 1, node :: rest => (walk fuel (rest ++ children node)).map (node :: ·)

variable {children} {root node : α}

section Levels

theorem walk_nil (fuel : Nat) : walk children fuel [] = some [] := by
  cases fuel <;> rfl

theorem walk_mono {fuel more : Nat} (enough : fuel ≤ more) {nodes found : List α}
    (ends : walk children fuel nodes = some found) : walk children more nodes = some found := by
  induction fuel generalizing more nodes found with
  | zero =>
    cases nodes with
    | nil => rwa [walk_nil] at ends ⊢
    | cons node rest => cases ends
  | succ fuel ih =>
    cases nodes with
    | nil => rwa [walk_nil] at ends ⊢
    | cons node rest =>
      obtain ⟨left, rfl⟩ := Nat.exists_eq_add_of_le' enough
      rw [← Nat.add_assoc]
      simp only [walk, Option.map_eq_some_iff] at ends ⊢
      obtain ⟨behind, later, whole⟩ := ends
      exact ⟨behind, ih (Nat.le_add_left _ _) later, whole⟩

/-- While the nodes in front are taken, their children gather behind the others. -/
theorem walk_append (fuel : Nat) (nodes later : List α) :
    walk children (fuel + nodes.length) (nodes ++ later) =
      (walk children fuel (later ++ nodes.flatMap children)).map (nodes ++ ·) := by
  induction nodes generalizing later with
  | nil => simp
  | cons node nodes ih =>
    rw [List.cons_append, List.length_cons, ← Nat.add_assoc, walk, List.append_assoc, ih, Option.map_map,
      List.flatMap_cons, List.append_assoc]
    rfl

theorem walk_levels {fuel start count : Nat} (ends : level children root (start + count) = [])
    (enough : ((List.range' start count).flatMap (level children root)).length ≤ fuel) :
    walk children fuel (level children root start) =
      some ((List.range' start count).flatMap (level children root)) := by
  induction count generalizing start fuel with
  | zero =>
    rw [Nat.add_zero] at ends
    rw [ends, walk_nil]
    rfl
  | succ count ih =>
    rw [List.range'_succ, List.flatMap_cons, List.length_append] at enough
    obtain ⟨left, rfl⟩ := Nat.exists_eq_add_of_le (Nat.le_trans (Nat.le_add_right _ _) enough)
    have next := @walk_append _ children left (level children root start) []
    rw [List.append_nil, List.nil_append, Nat.add_comm left] at next
    have behind : walk children left (level children root (start + 1)) = _ :=
      ih (by rw [← ends, Nat.add_right_comm]; rfl) (by omega)
    rw [next, List.range'_succ, List.flatMap_cons]
    unfold level at behind
    rw [behind]
    rfl

end Levels

/-! The way up. -/

section Parents

variable (parent : α → Option α)

def up : Nat → α → Option α
  | 0, node => some node
  | count + 1, node => (parent node).bind (up count)

/-- The nodes above, the nearest first. -/
def above (count : Nat) (node : α) : List α := (List.range count).filterMap fun step => up parent (step + 1) node

/-- The climb that looks at so many nodes at most, and at none above one where it stops. -/
def ascend (stops : α → Bool) : Nat → α → List α
  | 0, _ => []
  | limit + 1, node =>
    match parent node with
    | none => []
    | some next => next :: if stops next then [] else ascend stops limit next

/-- Both directions tell of the same edges, and no node is above itself. -/
structure Grown (children : α → List α) (parent : α → Option α) : Prop where
  mem_iff : ∀ node child, child ∈ children node ↔ parent child = some node
  once : ∀ node, (children node).Nodup
  acyclic : ∀ node count, up parent (count + 1) node ≠ some node

variable {parent} {count other : Nat}

theorem up_add (first second : Nat) (node : α) :
    up parent (first + second) node = (up parent first node).bind (up parent second) := by
  induction first generalizing node with
  | zero => rw [Nat.zero_add]; rfl
  | succ first ih =>
    rw [Nat.succ_add, up, up]
    cases parent node with
    | none => rfl
    | some next => exact ih next

/-- Where parents come before their children there is no way back. -/
theorem up_lt [Preorder α] (older : ∀ node next, parent node = some next → next < node) {steps : Nat} {held : α}
    (reached : up parent (steps + 1) node = some held) : held < node := by
  induction steps generalizing node with
  | zero =>
    rw [up, Option.bind_eq_some_iff] at reached
    obtain ⟨next, upward, here⟩ := reached
    cases here
    exact older node held upward
  | succ steps ih =>
    rw [up, Option.bind_eq_some_iff] at reached
    obtain ⟨next, upward, later⟩ := reached
    exact lt_trans (ih later) (older node next upward)

theorem above_zero (node : α) : above parent 0 node = [] := rfl

theorem above_succ {next : α} (upward : parent node = some next) (count : Nat) :
    above parent (count + 1) node = next :: above parent count next := by
  unfold above
  rw [List.range_succ_eq_map, List.filterMap_cons, List.filterMap_map]
  simp only [up, upward, Option.bind_some]
  rfl

theorem length_above {depth : Nat} (under : up parent depth node = some root) :
    (above parent depth node).length = depth := by
  induction depth generalizing node with
  | zero => rfl
  | succ depth ih =>
    rw [up, Option.bind_eq_some_iff] at under
    obtain ⟨next, upward, later⟩ := under
    rw [above_succ upward, List.length_cons, ih later]

theorem getLast_above {depth : Nat} (under : up parent (depth + 1) node = some root) :
    (above parent (depth + 1) node).getLast? = some root := by
  induction depth generalizing node with
  | zero =>
    rw [up, Option.bind_eq_some_iff] at under
    obtain ⟨next, upward, later⟩ := under
    rw [above_succ upward, above_zero]
    exact later
  | succ depth ih =>
    rw [up, Option.bind_eq_some_iff] at under
    obtain ⟨next, upward, later⟩ := under
    rw [above_succ upward, List.getLast?_cons, ih later]
    rfl

theorem length_ascend_le (stops : α → Bool) (limit : Nat) (node : α) :
    (ascend parent stops limit node).length ≤ limit := by
  induction limit generalizing node with
  | zero => exact Nat.le_refl 0
  | succ limit ih =>
    unfold ascend
    split
    · exact Nat.zero_le _
    · rw [List.length_cons]
      split
      · exact Nat.succ_le_succ (Nat.zero_le _)
      · exact Nat.succ_le_succ (ih _)

/-- Where it stops at the root and at nothing below, the climb sees what is above the node, up to the root. -/
theorem ascend_eq {stops : α → Bool} {depth : Nat} (reached : up parent (depth + 1) node = some root)
    (halt : stops root = true)
    (passes : ∀ step < depth, ∀ held, up parent (step + 1) node = some held → stops held = false)
    (limit : Nat) : ascend parent stops limit node = (above parent (depth + 1) node).take limit := by
  induction limit generalizing node depth with
  | zero => rfl
  | succ limit ih =>
    rw [up, Option.bind_eq_some_iff] at reached
    obtain ⟨next, upward, later⟩ := reached
    rw [ascend, upward, above_succ upward, List.take_succ_cons]
    cases depth with
    | zero =>
      cases later
      simp only [halt, if_true, above_zero, List.take_nil]
    | succ depth =>
      have onward : stops next = false := passes 0 (Nat.succ_pos depth) next (by rw [up, upward]; rfl)
      simp only [onward, Bool.false_eq_true, if_false]
      rw [ih later]
      intro step before held here
      exact passes (step + 1) (Nat.succ_lt_succ before) held (by rw [up, upward]; exact here)

theorem Grown.mem_level (grown : Grown children parent) {depth : Nat} :
    node ∈ level children root depth ↔ up parent depth node = some root := by
  induction depth generalizing node with
  | zero =>
    rw [level, List.mem_singleton, up]
    exact ⟨congrArg some, Option.some.inj⟩
  | succ depth ih =>
    rw [level, List.mem_flatMap, up, Option.bind_eq_some_iff]
    constructor
    · intro found
      obtain ⟨next, member, inside⟩ := found
      exact ⟨next, (grown.mem_iff next node).mp inside, ih.mp member⟩
    · intro found
      obtain ⟨next, upward, reached⟩ := found
      exact ⟨next, ih.mpr reached, (grown.mem_iff next node).mpr upward⟩

theorem Grown.nodup_level (grown : Grown children parent) (depth : Nat) : (level children root depth).Nodup := by
  induction depth with
  | zero => exact List.nodup_singleton root
  | succ depth ih =>
    refine List.nodup_flatMap.mpr ⟨fun node _ => grown.once node, ih.imp ?_⟩
    intro first second differs child inFirst inSecond
    have upward := (grown.mem_iff first child).mp inFirst
    rw [(grown.mem_iff second child).mp inSecond] at upward
    exact differs (Option.some.inj upward).symm

/-- A node is at one depth only. -/
theorem Grown.depth_unique (grown : Grown children parent) {first second : Nat}
    (reached : up parent first node = some root) (again : up parent second node = some root) : first = second := by
  have shorter : ∀ {near far : Nat}, up parent near node = some root → up parent far node = some root →
      ¬ near < far := by
    intro near far reached again less
    obtain ⟨rest, rfl⟩ := Nat.exists_eq_add_of_lt less
    rw [Nat.add_assoc, up_add, reached] at again
    exact grown.acyclic root rest again
  exact Nat.le_antisymm (Nat.le_of_not_lt (shorter again reached)) (Nat.le_of_not_lt (shorter reached again))

/-- With so many nodes that have a parent, no way up is longer. -/
theorem Grown.level_eq_nil (grown : Grown children parent) {table : List α}
    (finite : ∀ node next, parent node = some next → node ∈ table) :
    level children root (table.length + 1) = [] := by
  rw [List.eq_nil_iff_forall_not_mem]
  intro node member
  have reached := grown.mem_level.mp member
  have stands : ∀ step < table.length + 1, ∃ held, up parent step node = some held ∧ held ∈ table := by
    intro step before
    obtain ⟨rest, same⟩ := Nat.exists_eq_add_of_lt before
    rw [same, Nat.add_assoc, up_add, Option.bind_eq_some_iff] at reached
    obtain ⟨held, here, later⟩ := reached
    rw [up, Option.bind_eq_some_iff] at later
    obtain ⟨next, upward, _⟩ := later
    exact ⟨held, here, finite held next upward⟩
  have distinct : ((List.range (table.length + 1)).filterMap fun step => up parent step node).Nodup := by
    refine List.Nodup.filterMap ?_ List.nodup_range
    intro near far held here again
    exact grown.depth_unique (Option.mem_def.mp here) (Option.mem_def.mp again)
  have listed : ∀ held ∈ (List.range (table.length + 1)).filterMap fun step => up parent step node, held ∈ table := by
    intro held stored
    obtain ⟨step, range, here⟩ := List.mem_filterMap.mp stored
    obtain ⟨other, same, inside⟩ := stands step (List.mem_range.mp range)
    rw [same] at here
    exact Option.some.inj here ▸ inside
  have all : ((List.range (table.length + 1)).filterMap fun step => up parent step node).length = table.length + 1 := by
    have whole : ∀ step ∈ List.range (table.length + 1), (up parent step node).isSome = true := by
      intro step range
      obtain ⟨held, here, _⟩ := stands step (List.mem_range.mp range)
      rw [here]
      rfl
    rw [List.length_filterMap_eq_countP, List.countP_eq_length.mpr whole, List.length_range]
  have bounded := (distinct.subperm listed).length_le
  omega

/-- The walk from a root: it ends, with every node under the root once, those nearer to the root first. -/
theorem Grown.walk_exact (grown : Grown children parent) {table : List α}
    (finite : ∀ node next, parent node = some next → node ∈ table) (root : α) :
    ∃ found enough, (∀ fuel, enough ≤ fuel → walk children fuel [root] = some found) ∧ found.Nodup ∧
      (∀ node, node ∈ found ↔ ∃ depth, up parent depth node = some root) ∧
      found.Pairwise fun first second => ∀ near far, up parent near first = some root →
        up parent far second = some root → near ≤ far := by
  have ends : level children root (table.length + 1) = [] := grown.level_eq_nil finite
  have none_below : ∀ depth, table.length + 1 ≤ depth → level children root depth = [] := by
    intro depth deep
    obtain ⟨more, rfl⟩ := Nat.exists_eq_add_of_le deep
    induction more with
    | zero => exact ends
    | succ more ih =>
      rw [← Nat.add_assoc, level, ih (Nat.le_add_right _ _)]
      rfl
  refine ⟨(List.range' 0 (table.length + 1)).flatMap (level children root), _,
    fun fuel enough => @walk_levels _ _ root fuel 0 _ (by rw [Nat.zero_add, ends]) enough, ?_, ?_, ?_⟩
  · refine List.nodup_flatMap.mpr ⟨fun depth _ => grown.nodup_level depth, (List.nodup_range' 1).imp ?_⟩
    intro first second differs node inFirst inSecond
    exact differs (grown.depth_unique (grown.mem_level.mp inFirst) (grown.mem_level.mp inSecond))
  · intro node
    rw [List.mem_flatMap]
    constructor
    · intro found
      obtain ⟨depth, _, member⟩ := found
      exact ⟨depth, grown.mem_level.mp member⟩
    · intro found
      obtain ⟨depth, reached⟩ := found
      have member := grown.mem_level.mpr reached
      refine ⟨depth, ?_, member⟩
      rw [List.mem_range'_1]
      refine ⟨Nat.zero_le _, ?_⟩
      by_contra deep
      rw [none_below depth (by omega)] at member
      cases member
  · refine List.pairwise_flatMap.mpr ⟨?_, (List.pairwise_lt_range' 1).imp ?_⟩
    · intro depth _
      refine List.pairwise_of_forall_mem_list ?_
      intro first inFirst second inSecond near far reached again
      have here := grown.depth_unique reached (grown.mem_level.mp inFirst)
      exact Nat.le_of_eq (here.trans (grown.depth_unique again (grown.mem_level.mp inSecond)).symm)
    · intro upper lower less first inFirst second inSecond near far reached again
      rw [grown.depth_unique reached (grown.mem_level.mp inFirst),
        grown.depth_unique again (grown.mem_level.mp inSecond)]
      exact Nat.le_of_lt less

end Parents

end Forest
