import OpenShell.Lib.PathNames
import OpenShell.Policy.Validate

namespace OpenShell.Policy

open Text PathNames

/-! The paths of the filesystem section: what the check does with a long one, and which of them stand
    for the root. -/

def isCharBoundary (count : Nat) (chars : List Char) : Prop :=
  ∃ front back, chars = front ++ back ∧ (front.map Char.utf8Size).sum = count

theorem slicePrefix_ne_none {count : Nat} {chars : List Char} :
    slicePrefix count chars ≠ none ↔ isCharBoundary count chars := by
  unfold isCharBoundary
  induction chars generalizing count with
  | nil =>
    cases count with
    | zero => simp [slicePrefix]
    | succ count => simp [slicePrefix]
  | cons c chars ih =>
    have positive := c.utf8Size_pos
    cases count with
    | zero =>
      simp only [slicePrefix, ne_eq, reduceCtorEq, not_false_eq_true, true_iff]
      exact ⟨[], c :: chars, rfl, rfl⟩
    | succ count =>
      rw [slicePrefix]
      split
      · rename_i fits
        rw [ne_eq, Option.map_eq_none_iff, ← ne_eq, ih]
        constructor
        · rintro ⟨front, back, rfl, size⟩
          refine ⟨c :: front, back, rfl, ?_⟩
          rw [List.map_cons, List.sum_cons]
          omega
        · rintro ⟨front, back, cut, size⟩
          cases front with
          | nil =>
            rw [List.map_nil, List.sum_nil] at size
            omega
          | cons d front =>
            cases cut
            rw [List.map_cons, List.sum_cons] at size
            exact ⟨front, back, rfl, by omega⟩
      · rename_i wide
        refine ⟨fun sliced => absurd rfl sliced, ?_⟩
        rintro ⟨front, back, cut, size⟩
        cases front with
        | nil =>
          rw [List.map_nil, List.sum_nil] at size
          omega
        | cons d front =>
          cases cut
          rw [List.map_cons, List.sum_cons] at size
          omega

theorem not_isCharBoundary {count : Nat} {front back : List Char} {c : Char}
    (before : (front.map Char.utf8Size).sum < count)
    (within : count < (front.map Char.utf8Size).sum + c.utf8Size) : ¬ isCharBoundary count (front ++ c :: back) := by
  rintro ⟨first, rest, cut, size⟩
  rcases List.append_eq_append_iff.mp cut with ⟨more, rfl, same⟩ | ⟨more, rfl, same⟩
  · cases more with
    | nil =>
      rw [List.append_nil] at size
      omega
    | cons d more =>
      rw [List.cons_append, List.cons.injEq] at same
      rw [← same.1, List.map_append, List.sum_append, List.map_cons, List.sum_cons] at size
      omega
  · rw [List.map_append, List.sum_append] at before
    omega

theorem pathViolations_ne_none {path : String} :
    pathViolations path ≠ none ↔ (maxPathLength < path.utf8ByteSize → isCharBoundary 77 path.toList) := by
  unfold pathViolations
  split
  · rename_i long
    have shortened : ¬ path.utf8ByteSize ≤ 80 := by
      have bound : maxPathLength = 4096 := rfl
      omega
    rw [ne_eq, Option.map_eq_none_iff, truncateForDisplay, if_neg shortened, Option.map_eq_none_iff, ← ne_eq,
      slicePrefix_ne_none]
    exact ⟨fun boundary _ => boundary, fun checked => checked long⟩
  · rename_i short
    exact ⟨fun _ long => absurd long short, fun _ => Option.some_ne_none _⟩

def SandboxPolicy.paths (policy : SandboxPolicy) : List String :=
  policy.filesystem.elim [] fun fs => fs.readOnly ++ fs.readWrite

def SandboxPolicy.readWritePaths (policy : SandboxPolicy) : List String :=
  policy.filesystem.elim [] FilesystemPolicy.readWrite

theorem mapM_ne_none {α β : Type} {f : α → Option β} {items : List α} :
    items.mapM f ≠ none ↔ ∀ item ∈ items, f item ≠ none := by
  induction items with
  | nil => simp
  | cons item items ih =>
    cases here : f item with
    | none => simp [here]
    | some value => cases rest : items.mapM f <;> simp_all

theorem filesystemViolations_ne_none {fs : FilesystemPolicy} :
    filesystemViolations fs ≠ none ↔ ∀ path ∈ fs.readOnly ++ fs.readWrite,
      maxPathLength < path.utf8ByteSize → isCharBoundary 77 path.toList := by
  rw [filesystemViolations, ne_eq, Option.map_eq_none_iff, ← ne_eq, mapM_ne_none]
  exact forall₂_congr fun path _ => pathViolations_ne_none

/-- The check returns, unless a path over the length limit has a character across byte 77. -/
theorem validateSandboxPolicy_total_iff (policy : SandboxPolicy) :
    validateSandboxPolicy policy ≠ none ↔ ∀ path ∈ policy.paths,
      maxPathLength < path.utf8ByteSize → isCharBoundary 77 path.toList := by
  unfold validateSandboxPolicy SandboxPolicy.paths
  cases policy.filesystem with
  | none => simp
  | some fs =>
    rw [Option.elim_some, ← filesystemViolations_ne_none]
    simp

/-- Seventy-six bytes of ASCII, then a letter of two bytes. -/
def accentedPath : List Char := ('/' :: List.replicate 75 'a') ++ 'é' :: List.replicate 4096 'a'

theorem length_le_utf8ByteSize (chars : List Char) : chars.length ≤ (String.ofList chars).utf8ByteSize := by
  induction chars with
  | nil => exact Nat.zero_le _
  | cons c chars ih =>
    have positive := c.utf8Size_pos
    have whole : String.ofList (c :: chars) = String.singleton c ++ String.ofList chars := by
      rw [← String.toList_inj]
      simp
    rw [whole, String.utf8ByteSize_append, String.utf8ByteSize_singleton, List.length_cons]
    omega

theorem accentedPath_long : maxPathLength < (String.ofList accentedPath).utf8ByteSize := by
  have length : accentedPath.length = 4173 := by
    rw [accentedPath, List.length_append, List.length_cons, List.length_cons, List.length_replicate,
      List.length_replicate]
  have bytes := length_le_utf8ByteSize accentedPath
  have bound : maxPathLength = 4096 := rfl
  omega

theorem accentedPath_cut : ¬ isCharBoundary 77 accentedPath := not_isCharBoundary (by decide) (by decide)

theorem validateSandboxPolicy_not_total : ¬ ∀ policy : SandboxPolicy, validateSandboxPolicy policy ≠ none := by
  intro total
  have returned := total { filesystem := some { readOnly := [String.ofList accentedPath] } }
  have checked : filesystemViolations { readOnly := [String.ofList accentedPath] } ≠ none := by
    intro missing
    exact returned (by simp only [validateSandboxPolicy, missing, Option.map_none])
  have boundary := filesystemViolations_ne_none.mp checked _ (List.mem_singleton_self _) accentedPath_long
  rw [String.toList_ofList] at boundary
  exact accentedPath_cut boundary

/-! The lexical normal form of a path. -/

def pushComponent (normalized : List Char) : Component → List Char
  | .rootDir => push normalized ['/']
  | .curDir => normalized
  | .parentDir => push normalized ['.', '.']
  | .normal name => push normalized name

def normalizePath (path : String) : String :=
  String.ofList ((components path.toList).foldl pushComponent [])

theorem foldl_pushComponent_body (path buffer : List Char) :
    (bodyComponents path).foldl pushComponent buffer = (names path).foldl push buffer := by
  have pushed : ∀ component ∈ bodyComponents path, ∀ buffer, pushComponent buffer component = push buffer component.name := by
    intro component member buffer
    obtain ⟨part, _, parsed⟩ := List.mem_filterMap.mp member
    cases component with
    | curDir =>
      unfold parseSingleComponent at parsed
      split at parsed <;> cases parsed
    | _ => rfl
  rw [← bodyComponents_name, List.foldl_map]
  generalize bodyComponents path = body at pushed
  induction body generalizing buffer with
  | nil => rfl
  | cons component body ih =>
    rw [List.foldl_cons, List.foldl_cons, pushed component (List.mem_cons_self ..)]
    exact ih _ (fun later member => pushed later (List.mem_cons_of_mem _ member))

theorem normalizePath_eq (path : String) : normalizePath path = String.ofList (normalForm path.toList) := by
  have folded := foldl_push_names path.toList
  unfold normalizePath components
  cases rooted : hasRoot path.toList with
  | true =>
    rw [rooted, if_pos rfl] at folded
    rw [if_pos rfl, List.foldl_cons, foldl_pushComponent_body, ← folded]
    rfl
  | false =>
    rw [rooted, if_neg Bool.false_ne_true] at folded
    rw [if_neg Bool.false_ne_true, List.foldl_append, foldl_pushComponent_body, ← folded]
    cases includeCurDir path.toList <;> rfl

theorem normalizePath_normalizePath (path : String) : normalizePath (normalizePath path) = normalizePath path := by
  rw [normalizePath_eq, normalizePath_eq path, String.toList_ofList, normalForm_normalForm]

theorem normalizePath_eq_root {path : String} :
    normalizePath path = "/" ↔ hasRoot path.toList ∧ names path.toList = [] := by
  rw [normalizePath_eq, ← normalForm_eq_root, ← String.toList_inj, String.toList_ofList]
  rfl

/-- The traversal check asks whether one of the components is the parent directory. -/
theorem parentDir_mem_components {path : List Char} :
    .parentDir ∈ components path ↔ (path.splitOn '/').contains ['.', '.'] = true := by
  have body : .parentDir ∈ bodyComponents path ↔ ['.', '.'] ∈ split '/' path := by
    rw [bodyComponents, List.mem_filterMap]
    constructor
    · rintro ⟨part, member, parsed⟩
      have same := name_of_parsed parsed
      rwa [← same] at member
    · intro member
      exact ⟨_, member, rfl⟩
  rw [List.contains_iff_mem, ← split_eq_splitOn, ← body, components]
  cases hasRoot path <;> cases includeCurDir path <;> simp

theorem pathViolations_eq_nil {path : String} :
    pathViolations path = some [] ↔
      path.utf8ByteSize ≤ maxPathLength ∧ hasRoot path.toList = true ∧ .parentDir ∉ components path.toList := by
  unfold pathViolations
  rw [parentDir_mem_components, hasRoot, decide_eq_true_eq]
  split
  · rename_i long
    simp only [Option.map_eq_some_iff]
    constructor
    · rintro ⟨shown, _, same⟩
      cases same
    · rintro ⟨short, _⟩
      omega
  · rename_i short
    simp only [Option.some.injEq, List.append_eq_nil_iff, ite_eq_left_iff, ite_eq_right_iff, List.cons_ne_self,
      imp_false, not_not]
    exact ⟨fun checked => ⟨Nat.le_of_not_lt short, checked⟩, fun checked => checked.2⟩

theorem mapM_flatten_eq_nil {α β : Type} {f : α → Option (List β)} {items : List α} :
    (items.mapM f).map List.flatten = some [] ↔ ∀ item ∈ items, f item = some [] := by
  induction items with
  | nil => simp
  | cons item items ih =>
    cases here : f item with
    | none => simp [here]
    | some value =>
      cases rest : items.mapM f with
      | none =>
        rw [rest, Option.map_none] at ih
        have failed : ¬ ∀ item ∈ items, f item = some [] := by
          intro checked
          cases ih.mpr checked
        simp [here, rest, failed]
      | some values =>
        rw [rest, Option.map_some, Option.some.injEq] at ih
        simp [here, rest, ← ih]

/-- What a filesystem section has passed when nothing is found in it. -/
theorem filesystemViolations_eq_nil {fs : FilesystemPolicy} :
    filesystemViolations fs = some [] ↔
      fs.readOnly.length + fs.readWrite.length ≤ maxFilesystemPaths ∧
        (∀ path ∈ fs.readOnly ++ fs.readWrite, pathViolations path = some []) ∧
        ∀ path ∈ fs.readWrite, ∃ c ∈ path.toList, c ≠ '/' := by
  rw [← mapM_flatten_eq_nil, filesystemViolations]
  cases (fs.readOnly ++ fs.readWrite).mapM pathViolations with
  | none => simp
  | some perPath => simp

instance (policy : SandboxPolicy) : Decidable policy.Safe :=
  inferInstanceAs (Decidable (validateSandboxPolicy policy = some []))

theorem hasRoot_of_safe {policy : SandboxPolicy} (safe : policy.Safe) {path : String}
    (member : path ∈ policy.readWritePaths) : hasRoot path.toList = true := by
  unfold SandboxPolicy.Safe validateSandboxPolicy at safe
  unfold SandboxPolicy.readWritePaths at member
  cases filesystem : policy.filesystem with
  | none =>
    rw [filesystem] at member
    cases member
  | some fs =>
    rw [filesystem] at safe member
    obtain ⟨found, checked, none⟩ := Option.map_eq_some_iff.mp safe
    rw [(List.append_eq_nil_iff.mp none).2] at checked
    have perPath := (filesystemViolations_eq_nil.mp checked).2.1 path (List.mem_append_right _ member)
    exact (pathViolations_eq_nil.mp perPath).2.1

/-- A writable path of an accepted policy stands for the root exactly when it is made of slashes and of
    single dots between them. -/
theorem rootWritable_iff (policy : SandboxPolicy) (safe : policy.Safe) :
    ((∀ path ∈ policy.readWritePaths, normalizePath path ≠ "/") ↔
      ∀ path ∈ policy.readWritePaths, ∃ part ∈ split '/' path.toList, part ≠ [] ∧ part ≠ ['.']) ∧
    ∀ path, normalizePath (normalizePath path) = normalizePath path := by
  refine ⟨forall₂_congr fun path member => ?_, normalizePath_normalizePath⟩
  rw [ne_eq, normalizePath_eq_root, hasRoot_of_safe safe member, names, List.filter_eq_nil_iff]
  simp

theorem rootWritable_tmp : normalizePath "/tmp" ≠ "/" := by
  have checked := (rootWritable_iff { filesystem := some { readWrite := ["/tmp"] } } (by decide +kernel)).1.mpr
  exact checked (by decide +kernel) "/tmp" (List.mem_singleton_self _)

theorem dotRoot_accepted : ¬ ((∀ policy : SandboxPolicy, policy.Safe → ∀ path ∈ policy.readWritePaths,
    normalizePath path ≠ "/") ∧ ∀ path, normalizePath (normalizePath path) = normalizePath path) := by
  rintro ⟨apart, _⟩
  have other := apart { filesystem := some { readWrite := ["/."] } } (by decide +kernel) "/."
    (List.mem_singleton_self _)
  exact other (by decide +kernel)

end OpenShell.Policy
