import Mathlib.Data.List.AList
import Mathlib.Logic.Function.Basic

/-! The environment variables of a program, and what the command that starts it changes of them. -/

namespace Environment

variable {κ β : Type}

abbrev Variables (κ β : Type) : Type := κ → Option β

/-- The variables that are set or removed. Where all have been cleared, none is inherited. -/
structure Overrides (κ β : Type) where
  cleared : Bool := false
  vars : κ → Option (Option β) := fun _ => none

/-- The variables of the program. -/
def Overrides.captured (overrides : Overrides κ β) (inherited : Variables κ β) : Variables κ β := fun key =>
  (overrides.vars key).getD (if overrides.cleared then none else inherited key)

def Overrides.clear (_ : Overrides κ β) : Overrides κ β := { cleared := true }

@[simp] theorem Overrides.captured_clear {overrides : Overrides κ β} {inherited : Variables κ β} :
    overrides.clear.captured inherited = fun _ => none := rfl

/-- The entries of a map in the order in which it is iterated. -/
def pairs (map : AList fun _ : κ => β) : List (κ × β) := map.entries.map fun entry => (entry.1, entry.2)

theorem pairs_distinct (map : AList fun _ : κ => β) : ((pairs map).map Prod.fst).Nodup := by
  have keys : (pairs map).map Prod.fst = map.entries.keys := by simp [pairs, List.keys]
  rw [keys]
  exact map.nodupKeys

variable [DecidableEq κ]

theorem lookup_pairs [BEq κ] [LawfulBEq κ] (map : AList fun _ : κ => β) (key : κ) :
    (pairs map).lookup key = map.lookup key := by
  obtain ⟨entries, nodup⟩ := map
  unfold pairs AList.lookup
  dsimp only
  clear nodup
  induction entries with
  | nil => rfl
  | cons entry entries ih =>
    obtain ⟨other, value⟩ := entry
    by_cases same : key = other
    · subst same
      simp
    · rw [List.map_cons, List.lookup_cons, beq_false_of_ne same, List.dlookup_cons_ne _ ⟨_, _⟩ same]
      exact ih

def set (env : Variables κ β) (key : κ) (value : β) : Variables κ β := Function.update env key (some value)

def unset (env : Variables κ β) (key : κ) : Variables κ β := Function.update env key none

def setAll (env : Variables κ β) (entries : List (κ × β)) : Variables κ β :=
  entries.foldl (fun env entry => set env entry.1 entry.2) env

theorem setAll_apply [BEq κ] [LawfulBEq κ] {entries : List (κ × β)} (distinct : (entries.map Prod.fst).Nodup)
    (env : Variables κ β) (key : κ) : setAll env entries key = (entries.lookup key).or (env key) := by
  induction entries generalizing env with
  | nil => rfl
  | cons entry entries ih =>
    obtain ⟨name, value⟩ := entry
    rw [List.map_cons, List.nodup_cons] at distinct
    obtain ⟨new, distinct⟩ := distinct
    have later : setAll (set env name value) entries key = (entries.lookup key).or (set env name value key) :=
      ih distinct _
    refine Eq.trans later ?_
    rw [List.lookup_cons]
    by_cases same : key = name
    · subst same
      have absent : entries.lookup key = none := by
        rw [List.lookup_eq_none_iff]
        intro entry member
        rw [bne_iff_ne]
        intro taken
        have listed : entry.1 ∈ entries.map Prod.fst := List.mem_map_of_mem member
        exact new (taken ▸ listed)
      rw [absent, beq_self_eq_true]
      simp [set]
    · rw [beq_false_of_ne same, set, Function.update_of_ne same]

namespace Overrides

variable (overrides : Overrides κ β)

def set (key : κ) (value : β) : Overrides κ β :=
  { overrides with vars := Function.update overrides.vars key (some (some value)) }

def remove (key : κ) : Overrides κ β :=
  { overrides with vars := Function.update overrides.vars key (if overrides.cleared then none else some none) }

def setAll (entries : List (κ × β)) : Overrides κ β :=
  entries.foldl (fun overrides entry => overrides.set entry.1 entry.2) overrides

variable {overrides} {inherited : Variables κ β} {key : κ}

@[simp] theorem captured_set {value : β} :
    (overrides.set key value).captured inherited = Environment.set (overrides.captured inherited) key value := by
  funext other
  by_cases same : other = key
  · subst same
    simp [captured, set, Environment.set]
  · simp only [captured, set, Environment.set, Function.update_of_ne same]
    rfl

@[simp] theorem captured_remove :
    (overrides.remove key).captured inherited = unset (overrides.captured inherited) key := by
  funext other
  by_cases same : other = key
  · subst same
    cases cleared : overrides.cleared <;> simp [captured, remove, unset, cleared]
  · simp only [captured, remove, unset, Function.update_of_ne same]
    rfl

@[simp] theorem captured_setAll {entries : List (κ × β)} :
    (overrides.setAll entries).captured inherited = Environment.setAll (overrides.captured inherited) entries := by
  induction entries generalizing overrides with
  | nil => rfl
  | cons entry entries ih =>
    have later : ((overrides.set entry.1 entry.2).setAll entries).captured inherited =
        Environment.setAll ((overrides.set entry.1 entry.2).captured inherited) entries := ih
    rw [captured_set] at later
    exact later

end Overrides

end Environment
