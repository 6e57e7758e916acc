import Mathlib.Data.Finmap
import Mathlib.Data.String.Basic

/-! Maps with unique keys whose values are changed in place, and maps that are iterated in the order of
their keys. -/

namespace Maps

variable {κ β γ : Type}

def mapValues (change : κ → β → γ) (map : AList fun _ : κ => β) : AList fun _ : κ => γ :=
  ⟨map.entries.map (.map id change), map.nodupKeys.map₂ change _⟩

/-- The same for a map without an order. -/
def mapFinite (change : β → γ) (map : Finmap fun _ : κ => β) : Finmap fun _ : κ => γ :=
  ⟨map.entries.map (.map id fun _ => change), by
    obtain ⟨entries, nodup⟩ := map
    induction entries using Quotient.inductionOn with
    | h list => exact List.NodupKeys.map₂ (fun _ => change) list nodup⟩

section Lookup

variable [DecidableEq κ] {change : κ → β → γ} {map other : AList fun _ : κ => β} {key : κ} {value : β}

@[simp] theorem lookup_mapValues : (mapValues change map).lookup key = (map.lookup key).map (change key) :=
  List.dlookup_map₂ key

theorem mem_of_lookup (found : map.lookup key = some value) : ⟨key, value⟩ ∈ map.entries :=
  AList.mem_lookup_iff.mp found

theorem lookup_of_mem (member : ⟨key, value⟩ ∈ map.entries) : map.lookup key = some value :=
  AList.mem_lookup_iff.mpr member

theorem perm_iff_lookup : map.entries.Perm other.entries ↔ ∀ key, map.lookup key = other.lookup key := by
  constructor
  · intro perm key
    exact AList.perm_lookup perm
  · intro same
    apply List.lookup_ext map.nodupKeys other.nodupKeys
    intro key value
    have found := same key
    unfold AList.lookup at found
    rw [found]

end Lookup

def retain (keep : κ → β → Bool) (map : AList fun _ : κ => β) : AList fun _ : κ => β :=
  ⟨map.entries.filter fun entry => keep entry.1 entry.2, map.nodupKeys.sublist List.filter_sublist⟩

theorem lookup_retain [DecidableEq κ] {keep : κ → β → Bool} {map : AList fun _ : κ => β} {key : κ} :
    (retain keep map).lookup key = (map.lookup key).filter (keep key) := by
  ext value
  rw [← Option.mem_def, AList.mem_lookup_iff, Option.filter_eq_some_iff, ← Option.mem_def, AList.mem_lookup_iff]
  exact List.mem_filter

/-- A map whose keys are written in another way. -/
def rekey {ι : Type} (write : κ → ι) (injective : Function.Injective write) (change : β → γ)
    (map : AList fun _ : κ => β) : AList fun _ : ι => γ :=
  ⟨map.entries.map fun entry => ⟨write entry.1, change entry.2⟩, by
    have keys : (map.entries.map fun entry => (⟨write entry.1, change entry.2⟩ : Σ _ : ι, γ)).keys =
        map.entries.keys.map write := by simp [List.keys]
    rw [List.NodupKeys, keys]
    exact map.nodupKeys.map injective⟩

section Rekey

variable {ι : Type} [DecidableEq κ] [DecidableEq ι] {write : κ → ι} {injective : Function.Injective write}
  {change : β → γ} {map : AList fun _ : κ => β} {key : κ}

theorem lookup_rekey : (rekey write injective change map).lookup (write key) = (map.lookup key).map change := by
  obtain ⟨entries, nodup⟩ := map
  unfold rekey AList.lookup
  dsimp only
  clear nodup
  induction entries with
  | nil => rfl
  | cons entry entries ih =>
    obtain ⟨other, value⟩ := entry
    by_cases same : key = other
    · subst same
      simp
    · rw [List.map_cons, List.dlookup_cons_ne _ ⟨_, _⟩ (injective.ne same), List.dlookup_cons_ne _ ⟨_, _⟩ same, ih]

theorem rekey_insert (value : β) :
    rekey write injective change (map.insert key value) =
      (rekey write injective change map).insert (write key) (change value) := by
  apply AList.ext
  simp only [rekey, AList.insert, List.kinsert, List.map_cons, List.kerase, List.eraseP_map]
  have erased : ((fun entry : Σ _ : ι, γ => decide (write key = entry.1)) ∘
      fun entry : Σ _ : κ, β => (⟨write entry.1, change entry.2⟩ : Σ _ : ι, γ)) =
      fun entry => decide (key = entry.1) := by
    funext entry
    simp [injective.eq_iff]
  rw [erased]

end Rekey

/-- Where each event changes the entry of its own key, an entry tells of the events with its key and of no others. -/
theorem lookup_foldl_insert {ε : Type} [DecidableEq κ] (keyOf : ε → κ) (change : Option β → ε → β) (events : List ε)
    (start : AList fun _ : κ => β) (key : κ) :
    (events.foldl (fun map event => map.insert (keyOf event) (change (map.lookup (keyOf event)) event))
      start).lookup key =
      (events.filter fun event => keyOf event = key).foldl (fun held event => some (change held event))
        (start.lookup key) := by
  induction events generalizing start with
  | nil => rfl
  | cons event events ih =>
    rw [List.foldl_cons, ih]
    by_cases own : keyOf event = key
    · rw [List.filter_cons_of_pos (by simpa using own), List.foldl_cons, own, AList.lookup_insert]
    · rw [List.filter_cons_of_neg (by simpa using own), AList.lookup_insert_ne (Ne.symm own)]

theorem mapFinite_mapFinite {δ : Type} (back : γ → δ) (change : β → γ) (map : Finmap fun _ : κ => β) :
    mapFinite back (mapFinite change map) = mapFinite (fun value => back (change value)) map := by
  apply Finmap.ext
  simp only [mapFinite, Multiset.map_map]
  rfl

end Maps

/-- A map that is iterated in the order of its keys. -/
structure SortedMap (β : Type) where
  map : AList fun _ : String => β
  sorted : map.entries.Pairwise fun first second => first.1 < second.1

namespace SortedMap

variable {β γ : Type}

def sortEntries (map : AList fun _ : String => β) : List (Σ _ : String, β) :=
  map.entries.mergeSort fun first second => first.1 ≤ second.1

theorem sortEntries_perm (map : AList fun _ : String => β) : (sortEntries map).Perm map.entries :=
  List.mergeSort_perm _ _

def ofMap (map : AList fun _ : String => β) : SortedMap β :=
  ⟨⟨sortEntries map, (List.perm_nodupKeys (sortEntries_perm map)).mpr map.nodupKeys⟩, by
    have ordered : (sortEntries map).Pairwise fun first second => decide (first.1 ≤ second.1) = true :=
      List.pairwise_mergeSort (fun first second third below above => by
          simp only [decide_eq_true_eq] at below above ⊢
          exact below.trans above)
        (fun first second => by simpa using le_total first.1 second.1) _
    have distinct := List.nodupKeys_iff_pairwise.mp ((List.perm_nodupKeys (sortEntries_perm map)).mpr map.nodupKeys)
    exact (ordered.and distinct).imp fun both => lt_of_le_of_ne (by simpa using both.1) both.2⟩

def mapValues (change : β → γ) (sorted : SortedMap β) : SortedMap γ :=
  ⟨Maps.mapValues (fun _ => change) sorted.map, by
    have kept := sorted.sorted
    exact List.pairwise_map.mpr (kept.imp fun below => below)⟩

theorem ofMap_lookup (map : AList fun _ : String => β) (key : String) : (ofMap map).map.lookup key = map.lookup key :=
  AList.perm_lookup (sortEntries_perm map)

/-- A map has one order of its keys. -/
theorem eq_of_perm {first second : SortedMap β} (perm : first.map.entries.Perm second.map.entries) : first = second := by
  obtain ⟨firstMap, firstSorted⟩ := first
  obtain ⟨secondMap, secondSorted⟩ := second
  have same : firstMap.entries = secondMap.entries :=
    perm.eq_of_pairwise (fun _ _ _ _ below above => absurd (below.trans above) (lt_irrefl _)) firstSorted secondSorted
  have sameMap : firstMap = secondMap := AList.ext same
  subst sameMap
  rfl

theorem ofMap_eq_of_perm {first second : AList fun _ : String => β} (perm : first.entries.Perm second.entries) :
    ofMap first = ofMap second :=
  eq_of_perm ((sortEntries_perm first).trans (perm.trans (sortEntries_perm second).symm))

def ofFinite (map : Finmap fun _ : String => β) : SortedMap β :=
  map.liftOn ofMap fun _ _ perm => ofMap_eq_of_perm perm

theorem ofMap_mapValues (change : β → γ) (map : AList fun _ : String => β) :
    ofMap (Maps.mapValues (fun _ => change) map) = (ofMap map).mapValues change := by
  apply eq_of_perm
  exact (sortEntries_perm _).trans ((sortEntries_perm map).symm.map _)

theorem ofFinite_mapFinite (change : β → γ) (map : Finmap fun _ : String => β) :
    ofFinite (Maps.mapFinite change map) = (ofFinite map).mapValues change := by
  induction map using Finmap.induction_on with
  | H held => exact ofMap_mapValues change held

@[simp] theorem mapValues_map (change : β → γ) (sorted : SortedMap β) :
    (sorted.mapValues change).map = Maps.mapValues (fun _ => change) sorted.map := rfl

end SortedMap
