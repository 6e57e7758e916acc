import OpenShell.Lib.Additions
import OpenShell.Sandbox.PollLoop
import OpenShell.Server.UpdateConfig
import OpenShell.Policy.Paths

namespace OpenShell.Sandbox

open OpenShell.Policy OpenShell.Server Text Additions

/-! The paths that every sandbox behind a proxy needs, and what they make of a policy. -/

def proxyBaselineReadOnly : List String := ["/usr", "/lib", "/etc", "/app", "/var/log", "/proc", "/dev/urandom"]

def proxyBaselineReadWrite : List String := ["/sandbox", "/tmp"]

def gpuBaselineReadOnly : List String := ["/run/nvidia-persistenced"]

def gpuBaselineReadWrite : List String :=
  ["/dev/nvidiactl", "/dev/nvidia-uvm", "/dev/nvidia-uvm-tools", "/dev/nvidia-modeset", "/proc"]

/-- What the container has: the paths that exist, and the names in `/dev`, which the system keeps short. -/
structure Image where
  pathExists : String → Bool
  devEntries : List String
  named : ∀ name ∈ devEntries, name.utf8ByteSize ≤ 255

namespace Image

variable (image : Image)

def hasGpuDevices : Bool := image.pathExists "/dev/nvidiactl"

def enumerateGpuDeviceNodes : List String :=
  image.devEntries.filterMap fun name =>
    (stripPrefix "nvidia".toList name.toList).bind fun suffix =>
      if suffix.isEmpty || !suffix.all Char.isDigit then none else some ("/dev/" ++ name)

/-- A path that is promoted to writing is not among those for reading. -/
def baselineEnrichmentPaths : List String × List String :=
  let ro := proxyBaselineReadOnly ++ if image.hasGpuDevices then gpuBaselineReadOnly else []
  let rw := proxyBaselineReadWrite ++
    if image.hasGpuDevices then gpuBaselineReadWrite ++ image.enumerateGpuDeviceNodes else []
  (ro.filter fun path => !rw.contains path, rw)

def addReadOnly (state : FilesystemPolicy × Bool) (path : String) : FilesystemPolicy × Bool :=
  if !state.1.readOnly.contains path && !state.1.readWrite.contains path then
    if !image.pathExists path then state
    else ({ state.1 with readOnly := state.1.readOnly ++ [path] }, true)
  else state

def addReadWrite (state : FilesystemPolicy × Bool) (path : String) : FilesystemPolicy × Bool :=
  if !state.1.readWrite.contains path then
    if !image.pathExists path then state
    else ({ state.1 with readWrite := state.1.readWrite ++ [path] }, true)
  else state

/-- The policy with the paths that it lacks, and whether one was added. -/
def enrichProtoBaselinePaths (proto : SandboxPolicy) : SandboxPolicy × Bool :=
  if proto.networkPolicies.entries.isEmpty then (proto, false)
  else
    let fs := proto.filesystem.getD { includeWorkdir := true }
    let (ro, rw) := image.baselineEnrichmentPaths
    let (fs, modified) := rw.foldl image.addReadWrite (ro.foldl image.addReadOnly (fs, false))
    ({ proto with filesystem := some fs }, modified)

end Image

/-! The two loops. -/

section Loops

variable {image : Image}

def Image.present (image : Image) (paths : List String) : List String := paths.filter image.pathExists

/-- A loop that passes over the paths that the image lacks. -/
theorem foldl_present {held state : Type} {shown : held → state} {step : held → String → held}
    {loop : state → String → state}
    (one : ∀ now path, loop (shown now) path = shown (if image.pathExists path then step now path else now))
    (paths : List String) (now : held) : paths.foldl loop (shown now) = shown ((image.present paths).foldl step now) := by
  unfold Image.present
  rw [List.foldl_filter]
  induction paths generalizing now with
  | nil => rfl
  | cons path paths ih => rw [List.foldl_cons, one, ih, List.foldl_cons]

theorem addReadOnly_loop (paths : List String) (fs : FilesystemPolicy) (modified : Bool) :
    paths.foldl image.addReadOnly (fs, modified) =
      let added := (image.present paths).foldl (addFlagged fs.readWrite) (fs.readOnly, modified)
      ({ fs with readOnly := added.1 }, added.2) := by
  have one : ∀ (now : List String × Bool) path, image.addReadOnly ({ fs with readOnly := now.1 }, now.2) path =
      (fun added : List String × Bool => ({ fs with readOnly := added.1 }, added.2))
        (if image.pathExists path then addFlagged fs.readWrite now path else now) := by
    intro now path
    unfold Image.addReadOnly addFlagged
    by_cases held : path ∈ now.1 ∨ path ∈ fs.readWrite
    · rw [if_pos held, ite_self, if_neg (by simpa [or_iff_not_imp_left] using held)]
    · rw [if_neg held, if_pos (by simpa using held)]
      cases image.pathExists path with
      | false => rfl
      | true => rfl
  exact foldl_present one paths (fs.readOnly, modified)

theorem addReadWrite_loop (paths : List String) (fs : FilesystemPolicy) (modified : Bool) :
    paths.foldl image.addReadWrite (fs, modified) =
      let added := (image.present paths).foldl (addFlagged []) (fs.readWrite, modified)
      ({ fs with readWrite := added.1 }, added.2) := by
  have one : ∀ (now : List String × Bool) path, image.addReadWrite ({ fs with readWrite := now.1 }, now.2) path =
      (fun added : List String × Bool => ({ fs with readWrite := added.1 }, added.2))
        (if image.pathExists path then addFlagged [] now path else now) := by
    intro now path
    unfold Image.addReadWrite addFlagged
    simp only [List.not_mem_nil, or_false]
    by_cases held : path ∈ now.1
    · rw [if_pos held, ite_self, if_neg (by simpa using held)]
    · rw [if_neg held, if_pos (by simpa using held)]
      cases image.pathExists path with
      | false => rfl
      | true => rfl
  exact foldl_present one paths (fs.readWrite, modified)

/-- The section with the paths that it lacks. -/
def Image.enriched (image : Image) (fs : FilesystemPolicy) : FilesystemPolicy :=
  { fs with
    readOnly := addMissing fs.readWrite fs.readOnly (image.present image.baselineEnrichmentPaths.1)
    readWrite := addMissing [] fs.readWrite (image.present image.baselineEnrichmentPaths.2) }

/-- The section that is enriched. -/
def declaredSection (policy : SandboxPolicy) : FilesystemPolicy := policy.filesystem.getD { includeWorkdir := true }

theorem enrichProtoBaselinePaths_eq (policy : SandboxPolicy) (proxied : policy.networkPolicies.entries ≠ []) :
    image.enrichProtoBaselinePaths policy =
      ({ policy with filesystem := some (image.enriched (declaredSection policy)) },
        decide (image.enriched (declaredSection policy) ≠ declaredSection policy)) := by
  have some : policy.networkPolicies.entries.isEmpty = false := by simpa using proxied
  unfold Image.enrichProtoBaselinePaths declaredSection
  simp only [some, Bool.false_eq_true, if_false, addReadOnly_loop, addReadWrite_loop, foldl_addFlagged, Bool.false_or]
  generalize policy.filesystem.getD { includeWorkdir := true } = fs
  refine Prod.ext rfl ?_
  obtain ⟨includeWorkdir, readOnly, readWrite⟩ := fs
  simp only [Image.enriched, FilesystemPolicy.mk.injEq, true_and, ne_eq, ← Bool.decide_or, decide_eq_decide]
  tauto

end Loops

/-! What the start of a sandbox makes of it. -/

section Start

variable {image : Image}

/-- The baseline paths that the image has. -/
def Image.baselinePaths (image : Image) : BaselinePaths :=
  ⟨image.present image.baselineEnrichmentPaths.1, image.present image.baselineEnrichmentPaths.2⟩

theorem enrichReadOnly_loop (paths : List String) (fs : FilesystemPolicy) :
    paths.foldl enrichReadOnly fs = { fs with readOnly := addMissing fs.readWrite fs.readOnly paths } := by
  induction paths generalizing fs with
  | nil => rfl
  | cons path paths ih =>
    rw [List.foldl_cons, addMissing_cons, ih, enrichReadOnly]
    by_cases held : path ∈ fs.readOnly ∨ path ∈ fs.readWrite
    · rw [if_pos (by simpa using held), if_pos held]
    · rw [if_neg (by simpa using held), if_neg held]

theorem enrichReadWrite_loop (paths : List String) (fs : FilesystemPolicy) :
    paths.foldl enrichReadWrite fs = { fs with readWrite := addMissing [] fs.readWrite paths } := by
  induction paths generalizing fs with
  | nil => rfl
  | cons path paths ih =>
    rw [List.foldl_cons, addMissing_cons, ih, enrichReadWrite]
    by_cases held : path ∈ fs.readWrite
    · rw [if_pos (by simpa using held), if_pos (.inl held)]
    · rw [if_neg (by simpa using held), if_neg (by simpa using held)]

/-- The policy that a sandbox starts with is the enriched one. -/
theorem enrichProtoBaselinePaths_fst (policy : SandboxPolicy) :
    (image.enrichProtoBaselinePaths policy).1 = enrichProtoBaselinePaths image.baselinePaths policy := by
  by_cases proxied : policy.networkPolicies.entries = []
  · unfold Image.enrichProtoBaselinePaths enrichProtoBaselinePaths
    simp [proxied]
  · rw [enrichProtoBaselinePaths_eq policy proxied, enrichProtoBaselinePaths,
      if_neg (by simpa using proxied)]
    dsimp only
    rw [enrichReadOnly_loop, enrichReadWrite_loop]
    rfl

end Start

/-! What is added. -/

section Added

variable {image : Image} {fs : FilesystemPolicy}

/-- Declared paths stay in front. Behind them stand existing baseline paths: for reading those that were declared in
neither list, and for writing those that were not declared for writing. -/
structure Extends (image : Image) (before after : FilesystemPolicy) : Prop where
  includeWorkdir : after.includeWorkdir = before.includeWorkdir
  readOnly : ∃ added, after.readOnly = before.readOnly ++ added ∧ ∀ path ∈ added,
    path ∈ image.baselineEnrichmentPaths.1 ∧ image.pathExists path = true ∧ path ∉ before.readOnly ∧
      path ∉ before.readWrite
  readWrite : ∃ added, after.readWrite = before.readWrite ++ added ∧ ∀ path ∈ added,
    path ∈ image.baselineEnrichmentPaths.2 ∧ image.pathExists path = true ∧ path ∉ before.readWrite

theorem mem_present {paths : List String} {path : String} :
    path ∈ image.present paths ↔ path ∈ paths ∧ image.pathExists path = true := List.mem_filter

theorem extends_enriched : Extends image fs (image.enriched fs) where
  includeWorkdir := rfl
  readOnly := by
    obtain ⟨added, whole, fresh⟩ := addMissing_eq_append fs.readWrite fs.readOnly
      (image.present image.baselineEnrichmentPaths.1)
    refine ⟨added, whole, ?_⟩
    intro path member
    obtain ⟨inside, missing⟩ := fresh path member
    obtain ⟨baseline, found⟩ := mem_present.mp inside
    exact ⟨baseline, found, missing⟩
  readWrite := by
    obtain ⟨added, whole, fresh⟩ := addMissing_eq_append [] fs.readWrite (image.present image.baselineEnrichmentPaths.2)
    refine ⟨added, whole, ?_⟩
    intro path member
    obtain ⟨inside, missing, _⟩ := fresh path member
    obtain ⟨baseline, found⟩ := mem_present.mp inside
    exact ⟨baseline, found, missing⟩

theorem enriched_again : image.enriched (image.enriched fs) = image.enriched fs := by
  have kept : fs.readWrite ⊆ (image.enriched fs).readWrite := prefix_addMissing.subset
  have reading : addMissing (image.enriched fs).readWrite (image.enriched fs).readOnly
      (image.present image.baselineEnrichmentPaths.1) = (image.enriched fs).readOnly := addMissing_again kept
  have writing : addMissing [] (image.enriched fs).readWrite (image.present image.baselineEnrichmentPaths.2) =
      (image.enriched fs).readWrite := addMissing_again (List.Subset.refl _)
  have whole : image.enriched (image.enriched fs) = { image.enriched fs with
      readOnly := addMissing (image.enriched fs).readWrite (image.enriched fs).readOnly
        (image.present image.baselineEnrichmentPaths.1)
      readWrite := addMissing [] (image.enriched fs).readWrite (image.present image.baselineEnrichmentPaths.2) } := rfl
  rw [whole, reading, writing]

/-- The image has one of the baseline paths. -/
def Image.HasBaselinePath (image : Image) : Prop :=
  ∃ path ∈ image.baselineEnrichmentPaths.1 ++ image.baselineEnrichmentPaths.2, image.pathExists path = true

/-- The section that is put in where there was none holds nothing yet. -/
theorem enriched_empty_ne (some_path : image.HasBaselinePath) (includeWorkdir : Bool) :
    image.enriched { includeWorkdir } ≠ { includeWorkdir } := by
  obtain ⟨path, member, found⟩ := some_path
  intro same
  rcases List.mem_append.mp member with read | written
  · have nothing : addMissing [] [] (image.present image.baselineEnrichmentPaths.1) = [] :=
      congrArg FilesystemPolicy.readOnly same
    simpa using addMissing_eq_self_iff.mp nothing path (mem_present.mpr ⟨read, found⟩)
  · have nothing : addMissing [] [] (image.present image.baselineEnrichmentPaths.2) = [] :=
      congrArg FilesystemPolicy.readWrite same
    simpa using addMissing_eq_self_iff.mp nothing path (mem_present.mpr ⟨written, found⟩)

theorem additive_of_extends {before after : FilesystemPolicy} (extended : Extends image before after) :
    validateFilesystemAdditive (some before) (some after) = .ok () := by
  obtain ⟨addedRead, reading, _⟩ := extended.readOnly
  obtain ⟨addedWrite, writing, _⟩ := extended.readWrite
  have keptRead : before.readOnly.find? (fun path => !after.readOnly.contains path) = none := by
    rw [List.find?_eq_none]
    intro path member
    simp [reading, member]
  have keptWrite : before.readWrite.find? (fun path => !after.readWrite.contains path) = none := by
    rw [List.find?_eq_none]
    intro path member
    simp [writing, member]
  simp only [validateFilesystemAdditive, extended.includeWorkdir, ne_eq, not_true_eq_false, if_false, keptRead,
    keptWrite]

end Added

/-! The validators. -/

section Valid

variable {image : Image}

/-- The path passes every check, for reading and for writing. -/
def SafePath (path : String) : Prop := pathViolations path = some [] ∧ ∃ c ∈ path.toList, c ≠ '/'

theorem mem_enumerate {path : String} (member : path ∈ image.enumerateGpuDeviceNodes) :
    ∃ name suffix, name ∈ image.devEntries ∧ name.toList = "nvidia".toList ++ suffix ∧ suffix.all Char.isDigit = true ∧
      path = "/dev/" ++ name := by
  obtain ⟨name, inside, made⟩ := List.mem_filterMap.mp member
  obtain ⟨suffix, stripped, made⟩ := Option.bind_eq_some_iff.mp made
  split at made
  · cases made
  · rename_i digits
    cases made
    simp only [Bool.or_eq_true, Bool.not_eq_true', not_or, Bool.not_eq_false] at digits
    exact ⟨name, suffix, inside, stripPrefix_eq_some.mp stripped, digits.2, rfl⟩

theorem safePath_node {path : String} (member : path ∈ image.enumerateGpuDeviceNodes) : SafePath path := by
  obtain ⟨name, suffix, inside, text, digits, rfl⟩ := mem_enumerate member
  have short := image.named name inside
  have dotless : '.' ∉ ("/dev/" ++ name).toList := by
    rw [String.toList_append, text]
    intro dot
    rcases List.mem_append.mp dot with lead | dot
    · revert lead
      decide
    · rcases List.mem_append.mp dot with lead | digit
      · revert lead
        decide
      · have isDigit := List.all_eq_true.mp digits _ digit
        revert isDigit
        decide
  constructor
  · rw [pathViolations_eq_nil]
    refine ⟨?_, ?_, ?_⟩
    · rw [String.utf8ByteSize_append]
      have lead : "/dev/".utf8ByteSize = 5 := by decide
      unfold maxPathLength
      omega
    · rw [String.toList_append]
      rfl
    · rw [parentDir_mem_components, List.contains_iff_mem, ← split_eq_splitOn]
      intro climbs
      exact dotless ((infix_of_mem_split climbs).subset (by simp))
  · refine ⟨'d', ?_, by decide⟩
    rw [String.toList_append]
    exact List.mem_append_left _ (by decide)

theorem safePath_baseline {path : String}
    (baseline : path ∈ image.baselineEnrichmentPaths.1 ∨ path ∈ image.baselineEnrichmentPaths.2) : SafePath path := by
  have fixed : ∀ path ∈ proxyBaselineReadOnly ++ proxyBaselineReadWrite ++ gpuBaselineReadOnly ++ gpuBaselineReadWrite,
      pathViolations path = some [] ∧ (path.toList.any fun c => c != '/') = true := by
    decide
  have listed : path ∈ proxyBaselineReadOnly ++ proxyBaselineReadWrite ++ gpuBaselineReadOnly ++ gpuBaselineReadWrite ∨
      path ∈ image.enumerateGpuDeviceNodes := by
    unfold Image.baselineEnrichmentPaths at baseline
    simp only [List.mem_filter, List.mem_append] at baseline ⊢
    cases gpu : image.hasGpuDevices with
    | false =>
      simp only [gpu, Bool.false_eq_true, if_false, List.not_mem_nil, or_false] at baseline
      tauto
    | true =>
      simp only [gpu, if_true, List.mem_append] at baseline
      tauto
  rcases listed with known | node
  · obtain ⟨clean, other⟩ := fixed path known
    exact ⟨clean, by simpa using other⟩
  · exact safePath_node node

/-- The section passes every check. -/
def SafeSection (fs : FilesystemPolicy) : Prop :=
  fs.readOnly.length + fs.readWrite.length ≤ maxFilesystemPaths ∧
    (∀ path ∈ fs.readOnly ++ fs.readWrite, pathViolations path = some []) ∧
    ∀ path ∈ fs.readWrite, ∃ c ∈ path.toList, c ≠ '/'

theorem safe_iff {policy : SandboxPolicy} :
    policy.Safe ↔ processViolations policy = [] ∧ ∀ fs, policy.filesystem = some fs → SafeSection fs := by
  unfold SandboxPolicy.Safe validateSandboxPolicy
  cases filesystem : policy.filesystem with
  | none => simp
  | some fs =>
    simp only [Option.map_eq_some_iff, List.append_eq_nil_iff, Option.some.injEq, forall_eq']
    unfold SafeSection
    rw [← filesystemViolations_eq_nil]
    constructor
    · intro checked
      obtain ⟨found, violations, clean, none_found⟩ := checked
      exact ⟨clean, none_found ▸ violations⟩
    · intro both
      exact ⟨[], both.2, both.1, rfl⟩

/-- What is added to a safe section leaves it safe but for the number of its paths. -/
theorem safeSection_of_extends {before after : FilesystemPolicy} (safe : SafeSection before)
    (extended : Extends image before after) :
    SafeSection after ↔ after.readOnly.length + after.readWrite.length ≤ maxFilesystemPaths := by
  obtain ⟨addedRead, reading, freshRead⟩ := extended.readOnly
  obtain ⟨addedWrite, writing, freshWrite⟩ := extended.readWrite
  obtain ⟨_, clean, deep⟩ := safe
  constructor
  · intro whole
    exact whole.1
  · intro fits
    refine ⟨fits, ?_, ?_⟩
    · intro path member
      rw [reading, writing] at member
      rcases List.mem_append.mp member with read | written
      · rcases List.mem_append.mp read with declared | added
        · exact clean path (List.mem_append_left _ declared)
        · exact (safePath_baseline (.inl (freshRead path added).1)).1
      · rcases List.mem_append.mp written with declared | added
        · exact clean path (List.mem_append_right _ declared)
        · exact (safePath_baseline (.inr (freshWrite path added).1)).1
    · intro path member
      rw [writing] at member
      rcases List.mem_append.mp member with declared | added
      · exact deep path declared
      · exact (safePath_baseline (.inr (freshWrite path added).1)).2

end Valid

/-! Enrichment, and the write-back of what comes of it. -/

section Enriched

theorem unchanged_of_extends {image : Image} {before after : SandboxPolicy} {fs : FilesystemPolicy}
    (filesystem : after.filesystem = some fs) (extended : Extends image (declaredSection before) fs)
    (landlock : after.landlock = before.landlock) (process : after.process = before.process) :
    validateStaticFieldsUnchanged before after = .ok () := by
  have additive : validateFilesystemAdditive before.filesystem after.filesystem = .ok () := by
    rw [filesystem]
    cases declared : before.filesystem with
    | none => rfl
    | some own =>
      unfold declaredSection at extended
      rw [declared, Option.getD_some] at extended
      exact additive_of_extends extended
  unfold validateStaticFieldsUnchanged
  rw [additive, landlock, process]
  simp only [ne_eq, not_true_eq_false, if_false]
  rfl

/-- What is promised of an enriched policy. -/
structure EnrichedFrom (image : Image) (policy : SandboxPolicy) (enriched : SandboxPolicy × Bool) : Prop where
  again : image.enrichProtoBaselinePaths enriched.1 = (enriched.1, false)
  told : policy.filesystem ≠ none ∨ image.HasBaselinePath → (enriched.2 = true ↔ enriched.1 ≠ policy)
  rest : enriched.1 = { policy with filesystem := enriched.1.filesystem }
  extended : ∃ fs, enriched.1.filesystem = some fs ∧ Extends image (declaredSection policy) fs
  unchanged : validateStaticFieldsUnchanged policy enriched.1 = .ok ()
  accepted : (ensureSandboxProcessIdentity policy).Safe →
    validateStaticFieldsUnchanged (ensureSandboxProcessIdentity policy) (ensureSandboxProcessIdentity enriched.1) = .ok () ∧
      ((ensureSandboxProcessIdentity enriched.1).Safe ↔ enriched.1.paths.length ≤ maxFilesystemPaths)

/-- Enriching adds existing baseline paths behind the declared ones, and what comes of it is accepted unless it has too
many paths. -/
theorem enrichedFrom_enrichProtoBaselinePaths (image : Image) (policy : SandboxPolicy)
    (proxied : policy.networkPolicies.entries ≠ []) :
    EnrichedFrom image policy (image.enrichProtoBaselinePaths policy) := by
  have made := @enrichProtoBaselinePaths_eq image policy proxied
  have extended : Extends image (declaredSection policy) (image.enriched (declaredSection policy)) := extends_enriched
  rw [made]
  constructor
  · have madeAgain := @enrichProtoBaselinePaths_eq image
      { policy with filesystem := some (image.enriched (declaredSection policy)) } proxied
    simpa only [declaredSection, Option.getD_some, enriched_again, ne_eq, not_true_eq_false, decide_false] using madeAgain
  · intro present
    obtain ⟨version, filesystem, landlock, process, networkPolicies⟩ := policy
    cases filesystem with
    | some fs =>
      simp only [declaredSection, Option.getD_some, ne_eq, SandboxPolicy.mk.injEq, Option.some.injEq, true_and,
        and_true]
      exact decide_eq_true_iff
    | none =>
      have some_path := present.resolve_left fun absent => absent rfl
      simp [declaredSection, enriched_empty_ne some_path]
  · rfl
  · exact ⟨_, rfl, extended⟩
  · exact unchanged_of_extends rfl extended rfl rfl
  · intro safe
    refine ⟨unchanged_of_extends rfl extended rfl rfl, ?_⟩
    obtain ⟨clean, sections⟩ := safe_iff.mp safe
    have declared : SafeSection (declaredSection policy) := by
      unfold declaredSection
      cases filesystem : policy.filesystem with
      | none => exact ⟨by decide, by simp, by simp⟩
      | some fs => exact sections fs filesystem
    rw [safe_iff]
    show _ ∧ (∀ fs, some (image.enriched (declaredSection policy)) = some fs → SafeSection fs) ↔
      ((image.enriched (declaredSection policy)).readOnly ++ (image.enriched (declaredSection policy)).readWrite).length ≤
        maxFilesystemPaths
    rw [List.length_append, ← safeSection_of_extends declared extended]
    constructor
    · intro both
      exact both.2 _ rfl
    · intro whole
      refine ⟨clean, ?_⟩
      intro fs same
      cases same
      exact whole

/-- The image has these paths. -/
def imageWith (paths : List String) : Image := ⟨paths.contains, [], fun name member => by cases member⟩

def proxiedPolicy (filesystem : Option FilesystemPolicy) : SandboxPolicy :=
  { filesystem, networkPolicies := ⟨[⟨"api", {}⟩], by simp⟩ }

theorem proxiedPolicy_proxied (filesystem : Option FilesystemPolicy) :
    (proxiedPolicy filesystem).networkPolicies.entries ≠ [] := List.cons_ne_nil _ _

theorem enrichedFrom_tmp :
    EnrichedFrom (imageWith ["/usr", "/tmp"]) (proxiedPolicy (some { includeWorkdir := true, readOnly := ["/data"] }))
      ((imageWith ["/usr", "/tmp"]).enrichProtoBaselinePaths
        (proxiedPolicy (some { includeWorkdir := true, readOnly := ["/data"] }))) :=
  enrichedFrom_enrichProtoBaselinePaths _ _ (proxiedPolicy_proxied _)

/-- A section may be put in without being told, a path that is declared for reading may be opened for writing, and the
number of paths may come to exceed its limit. -/
theorem enrichment_not_conservative :
    (¬∀ (image : Image) (policy : SandboxPolicy), policy.networkPolicies.entries ≠ [] →
      ((image.enrichProtoBaselinePaths policy).2 = true ↔ (image.enrichProtoBaselinePaths policy).1 ≠ policy)) ∧
    (¬∀ (image : Image) (policy : SandboxPolicy) (before after : FilesystemPolicy),
      policy.networkPolicies.entries ≠ [] → policy.filesystem = some before →
      (image.enrichProtoBaselinePaths policy).1.filesystem = some after →
      ∀ path ∈ after.readWrite, path ∉ before.readWrite → path ∉ before.readOnly) ∧
    ¬∀ (image : Image) (policy : SandboxPolicy), policy.networkPolicies.entries ≠ [] →
      (ensureSandboxProcessIdentity policy).Safe →
      (ensureSandboxProcessIdentity (image.enrichProtoBaselinePaths policy).1).Safe := by
  refine ⟨?_, ?_, ?_⟩
  · intro told
    have silent := (told (imageWith []) (proxiedPolicy none) (proxiedPolicy_proxied _)).mpr (by decide +kernel)
    revert silent
    decide +kernel
  · intro apart
    have opened := apart (imageWith ["/tmp"]) (proxiedPolicy (some { readOnly := ["/tmp"] })) { readOnly := ["/tmp"] }
      { readOnly := ["/tmp"], readWrite := ["/tmp"] } (proxiedPolicy_proxied _) rfl (by decide +kernel) "/tmp"
      (by decide +kernel) (by decide +kernel)
    exact opened (by decide +kernel)
  · intro fits
    have safe : (ensureSandboxProcessIdentity (proxiedPolicy (some { readOnly := List.replicate 256 "/data" }))).Safe := by
      rw [safe_iff]
      refine ⟨by decide +kernel, ?_⟩
      intro fs same
      cases same
      refine ⟨by decide +kernel, ?_, fun path member => by cases member⟩
      intro path member
      rw [List.append_nil] at member
      rw [List.eq_of_mem_replicate member]
      decide +kernel
    have crowded := fits (imageWith ["/tmp"]) _ (proxiedPolicy_proxied _) safe
    rw [enrichProtoBaselinePaths_eq _ (proxiedPolicy_proxied _)] at crowded
    have few := ((safe_iff.mp crowded).2 _ rfl).1
    revert few
    decide +kernel

end Enriched

end OpenShell.Sandbox
