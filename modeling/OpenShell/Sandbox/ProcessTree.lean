import OpenShell.Lib.Additions
import OpenShell.Lib.Forest
import OpenShell.Lib.PathNames
import OpenShell.Lib.Utf8
import OpenShell.Sandbox.PeerIdentity

namespace OpenShell.Sandbox

open Text Additions

/-! The walks over the processes under the entry point: down to find who holds a socket, and up to name the binaries
that started it. -/

/-- The files under `/proc/<pid>` that the walks read. A file or a directory that cannot be read is `none`. -/
structure Processes where
  tasks : Nat → Option (List (Option (List Char)))
  status : Nat → Option (List Char)
  cmdline : Nat → Option (List UInt8)
  exe : Nat → Except String String

namespace Processes

variable (proc : Processes)

/-- The processes in the `children` files of all tasks of a process. -/
def childPids (pid : Nat) : List Nat :=
  ((proc.tasks pid).getD []).flatMap fun children =>
    (splitWhitespace (children.getD [])).filterMap (parseUnsigned 10 (2 ^ 32))

/-- The loop over the growing list, from a position on. -/
def collectDescendantPids : Nat → Nat → List Nat → Option (List Nat)
  | fuel, i, pids =>
    if inside : i < pids.length then
      match fuel with
      | 0 => none
      | fuel + 1 => collectDescendantPids fuel (i + 1) (pids ++ proc.childPids (pids.get ⟨i, inside⟩))
    else some pids

def readPpid (pid : Nat) : Option Nat :=
  match (lines ((proc.status pid).getD [])).findSome? (stripPrefix "PPid:".toList) with
  | none => none
  | some rest => parseUnsigned 10 (2 ^ 32) (trim rest)

/-- The parent the walks upward go on to. -/
def parent (current : Nat) : Option Nat :=
  match proc.readPpid current with
  | none => none
  | some ppid => if 0 < ppid ∧ ppid ≠ current then some ppid else none

def maxDepth : Nat := 64

/-- The processes that both walks upward visit. -/
def ancestors (pid stopPid : Nat) : List Nat :=
  Forest.ascend proc.parent (fun ppid => ppid = stopPid || ppid = 1) maxDepth pid

def collectAncestorBinaries (pid stopPid : Nat) : List String :=
  (proc.ancestors pid stopPid).filterMap fun ppid => (proc.exe ppid).toOption

def cmdlineAbsolutePaths (pid : Nat) : List (List Char) :=
  ((((proc.cmdline pid).getD []).splitOn 0).filter (·.head? = some 47)).map utf8DecodeLossy

/-- `contains` compares paths by their components. -/
def collectCmdlinePaths (pid stopPid : Nat) (exclude : List (List Char)) : List (List Char) :=
  (pid :: proc.ancestors pid stopPid).foldl
    (fun paths ppid => addMissingBy PathNames.components exclude paths (proc.cmdlineAbsolutePaths ppid)) []

/-- The files were read at one moment of a finite forest of processes, in which 1 has no parent. -/
structure Snapshot : Prop where
  grown : Forest.Grown proc.childPids proc.parent
  finite : ∃ table : List Nat, ∀ pid ppid, proc.parent pid = some ppid → pid ∈ table
  init : proc.parent 1 = none

variable {proc}

theorem collectDescendantPids_eq (fuel : Nat) (taken waiting : List Nat) :
    proc.collectDescendantPids fuel taken.length (taken ++ waiting) =
      (Forest.walk proc.childPids fuel waiting).map (taken ++ ·) := by
  induction fuel generalizing taken waiting with
  | zero =>
    unfold collectDescendantPids
    cases waiting with
    | nil => simp [Forest.walk]
    | cons pid waiting => simp [Forest.walk]
  | succ fuel ih =>
    unfold collectDescendantPids
    cases waiting with
    | nil => simp [Forest.walk]
    | cons pid waiting =>
      have inside : taken.length < (taken ++ pid :: waiting).length := by simp
      have next := ih (taken ++ [pid]) (waiting ++ proc.childPids pid)
      rw [dif_pos inside, Forest.walk, Option.map_map]
      simp only [List.get_eq_getElem, List.getElem_append_right (Nat.le_refl taken.length), Nat.sub_self,
        List.getElem_cons_zero]
      simp only [List.length_append, List.length_singleton, List.append_assoc, List.singleton_append] at next
      rw [List.append_assoc, List.cons_append, next]
      refine congrArg (Option.map · _) ?_
      funext rest
      rw [Function.comp_apply]

theorem collectDescendantPids_walk (fuel root : Nat) :
    proc.collectDescendantPids fuel 0 [root] = Forest.walk proc.childPids fuel [root] := by
  have from_start := @collectDescendantPids_eq proc fuel [] [root]
  simpa using from_start

/-- A shell under the entry point, which the first process has started. -/
def spawned : Processes where
  tasks pid := if pid = 1 then some [some "7 ".toList] else if pid = 7 then some [none, some "8 ".toList] else none
  status pid :=
    if pid = 1 then some "Name:\tinit\nPPid:\t0\n".toList
    else if pid = 7 then some "Name:\tagent\nPPid:\t1\n".toList
    else if pid = 8 then some "Name:\tsh\nPPid:\t7\n".toList
    else none
  cmdline _ := none
  exe pid := if pid = 7 then .ok "/usr/bin/agent" else .error "No such file or directory (os error 2)"

theorem spawned_children (pid : Nat) :
    spawned.childPids pid = if pid = 1 then [7] else if pid = 7 then [8] else [] := by
  by_cases first : pid = 1
  · rw [first]
    decide
  · by_cases second : pid = 7
    · rw [second]
      decide
    · rw [childPids, spawned]
      simp [first, second]

theorem spawned_parent (pid : Nat) :
    spawned.parent pid = if pid = 7 then some 1 else if pid = 8 then some 7 else none := by
  by_cases first : pid = 1
  · rw [first]
    decide
  · by_cases second : pid = 7
    · rw [second]
      decide
    · by_cases third : pid = 8
      · rw [third]
        decide
      · rw [parent, readPpid, spawned]
        simp [first, second, third]
        rfl

theorem spawned_snapshot : spawned.Snapshot := by
  refine ⟨⟨?_, ?_, ?_⟩, ⟨[7, 8], ?_⟩, by rw [spawned_parent]; rfl⟩
  · intro pid child
    rw [spawned_children, spawned_parent]
    grind
  · intro pid
    rw [spawned_children]
    grind
  · intro pid count again
    have older : ∀ node next, spawned.parent node = some next → next < node := by
      intro node next upward
      rw [spawned_parent] at upward
      grind
    exact Nat.lt_irrefl pid (Forest.up_lt older again)
  · intro pid ppid upward
    rw [spawned_parent] at upward
    grind

theorem collectDescendantPids_spec (proc : Processes) (root : Nat) (snapshot : proc.Snapshot) :
    ∃ pids enough, (∀ fuel, enough ≤ fuel → proc.collectDescendantPids fuel 0 [root] = some pids) ∧ pids.Nodup ∧
      (∀ pid, pid ∈ pids ↔ ∃ depth, Forest.up proc.parent depth pid = some root) ∧
      pids.Pairwise fun first second => ∀ near far, Forest.up proc.parent near first = some root →
        Forest.up proc.parent far second = some root → near ≤ far := by
  obtain ⟨table, finite⟩ := snapshot.finite
  obtain ⟨pids, enough, ends, exact⟩ := snapshot.grown.walk_exact finite root
  refine ⟨pids, enough, ?_, exact⟩
  intro fuel sufficient
  rw [collectDescendantPids_walk]
  exact ends fuel sufficient

/-- The walk down ends with every process under the entry point, each once, and those nearer to it first. -/
theorem descendants_exact (proc : Processes) (root : Nat) (snapshot : proc.Snapshot) :
    ∃ pids enough, (∀ fuel, enough ≤ fuel → proc.collectDescendantPids fuel 0 [root] = some pids) ∧ pids.Nodup ∧
      (∀ pid, pid ∈ pids ↔ ∃ depth, Forest.up proc.parent depth pid = some root) ∧
      pids.Pairwise fun first second => ∀ near far, Forest.up proc.parent near first = some root →
        Forest.up proc.parent far second = some root → near ≤ far :=
  collectDescendantPids_spec proc root snapshot

theorem spawned_descendants : ∃ pids enough, (∀ fuel, enough ≤ fuel →
    spawned.collectDescendantPids fuel 0 [7] = some pids) ∧ 7 ∈ pids ∧ 8 ∈ pids := by
  obtain ⟨pids, enough, ends, _, member, _⟩ := descendants_exact spawned 7 spawned_snapshot
  exact ⟨pids, enough, ends, (member 7).mpr ⟨0, rfl⟩, (member 8).mpr ⟨1, by decide⟩⟩

/-- From a process under the entry point the walk up names the binaries above it, the nearest first and the entry point
last, as far as the sixty-fourth. -/
theorem ancestors_exact (proc : Processes) (root pid depth : Nat) (snapshot : proc.Snapshot)
    (under : Forest.up proc.parent (depth + 1) pid = some root) :
    (Forest.above proc.parent (depth + 1) pid).length = depth + 1 ∧
      (Forest.above proc.parent (depth + 1) pid).getLast? = some root ∧
      proc.collectAncestorBinaries pid root =
        ((Forest.above proc.parent (depth + 1) pid).take maxDepth).filterMap fun ppid => (proc.exe ppid).toOption := by
  have passes : ∀ step < depth, ∀ held, Forest.up proc.parent (step + 1) pid = some held →
      (held = root || held = 1) = false := by
    intro step before held here
    obtain ⟨rest, rfl⟩ := Nat.exists_eq_add_of_lt before
    have cut : step + rest + 1 + 1 = step + 1 + (rest + 1) := by omega
    have onward := under
    rw [cut, Forest.up_add, here, Option.bind_some] at onward
    have apart : held ≠ root := by
      intro reached
      rw [reached] at onward
      exact snapshot.grown.acyclic root rest onward
    have later : held ≠ 1 := by
      intro first
      rw [first, Forest.up, snapshot.init] at onward
      cases onward
    simp [apart, later]
  refine ⟨Forest.length_above under, Forest.getLast_above under, ?_⟩
  unfold collectAncestorBinaries ancestors
  rw [Forest.ascend_eq under (by simp) passes]

theorem spawned_ancestors : spawned.collectAncestorBinaries 8 7 = ["/usr/bin/agent"] := by
  rw [(ancestors_exact spawned 7 8 0 spawned_snapshot (by decide)).2.2]
  decide

/-- The absolute paths of the command lines that the walk upward reads. -/
def visitedPaths (proc : Processes) (pid stopPid : Nat) : List (List Char) :=
  (pid :: proc.ancestors pid stopPid).flatMap proc.cmdlineAbsolutePaths

theorem collectCmdlinePaths_eq (proc : Processes) (pid stopPid : Nat) (exclude : List (List Char)) :
    proc.collectCmdlinePaths pid stopPid exclude =
      addMissingBy PathNames.components exclude [] (proc.visitedPaths pid stopPid) := by
  unfold collectCmdlinePaths visitedPaths addMissingBy
  rw [List.foldl_flatMap]

/-- Whatever the files say, the walk visits at most sixty-four processes above the first, and gives each absolute path
of their command lines once, but none that is known already. Paths with the same components are one path. -/
theorem cmdlinePaths_exact (proc : Processes) (pid stopPid : Nat) (exclude : List (List Char)) :
    (proc.ancestors pid stopPid).length ≤ maxDepth ∧
      ((proc.collectCmdlinePaths pid stopPid exclude).map PathNames.components).Nodup ∧
      (∀ path ∈ proc.collectCmdlinePaths pid stopPid exclude, path ∈ proc.visitedPaths pid stopPid ∧
        ∀ known ∈ exclude, PathNames.components path ≠ PathNames.components known) ∧
      ∀ path ∈ proc.visitedPaths pid stopPid,
        (∃ given ∈ proc.collectCmdlinePaths pid stopPid exclude,
          PathNames.components given = PathNames.components path) ∨
        ∃ known ∈ exclude, PathNames.components known = PathNames.components path := by
  rw [collectCmdlinePaths_eq]
  exact ⟨Forest.length_ascend_le _ _ _, addMissingBy_spec PathNames.components exclude _⟩

/-- A process under the entry point that holds a socket is not missed: the search names a holder, and none is nearer to
the entry point. -/
theorem owner_nearest (proc : Processes) (files : ProcFs) (root inode fuel : Nat) (snapshot : proc.Snapshot)
    (walked : proc.collectDescendantPids fuel 0 [root] = some files.descendants) (other : Nat)
    (below : ∃ depth, Forest.up proc.parent depth other = some root) (holds : files.Holds other inode) :
    ∃ pid, files.findPidBySocketInode inode root = .ok pid ∧ files.Holds pid inode ∧
      ∀ holder depth, Forest.up proc.parent depth holder = some root → files.Holds holder inode →
        ∃ near ≤ depth, Forest.up proc.parent near pid = some root := by
  obtain ⟨pids, enough, ends, _, member, ordered⟩ := collectDescendantPids_spec proc root snapshot
  have same : files.descendants = pids := by
    have more := Forest.walk_mono (Nat.le_max_left fuel enough) (collectDescendantPids_walk fuel root ▸ walked)
    rw [← collectDescendantPids_walk, ends _ (Nat.le_max_right fuel enough)] at more
    exact (Option.some.inj more).symm
  have checked : ∀ holder, files.Holds holder inode →
      files.checkPidFds holder (ProcFs.socketLink inode) = true := by
    intro holder held
    obtain ⟨links, readable, inside⟩ := held
    unfold ProcFs.checkPidFds
    rw [readable]
    simpa using inside
  have listed : ∀ holder depth, Forest.up proc.parent depth holder = some root → holder ∈ files.descendants := by
    intro holder depth under
    rw [same]
    exact (member holder).mpr ⟨depth, under⟩
  cases first : files.descendants.find? (files.checkPidFds · (ProcFs.socketLink inode)) with
  | none =>
    obtain ⟨depth, under⟩ := below
    exact absurd (checked other holds) (List.find?_eq_none.mp first other (listed other depth under))
  | some pid =>
    have found : files.findPidBySocketInode inode root = .ok pid := by
      rw [ProcFs.findPidBySocketInode, first]
    refine ⟨pid, found, holds_of_findPid found, ?_⟩
    intro holder depth under held
    obtain ⟨_, before, after, cut, others⟩ := List.find?_eq_some_iff_append.mp first
    obtain ⟨near, above⟩ := (member pid).mp (by rw [← same, cut]; simp)
    refine ⟨near, ?_, above⟩
    have placed := listed holder depth under
    rw [cut] at placed
    rcases List.mem_append.mp placed with early | late
    · have passed := others holder early
      rw [checked holder held] at passed
      cases passed
    · rcases List.mem_cons.mp late with own | behind
      · rw [own] at under
        exact Nat.le_of_eq (snapshot.grown.depth_unique above under)
      · rw [← same, cut] at ordered
        exact (List.pairwise_cons.mp (List.pairwise_append.mp ordered).2.1).1 holder behind near depth above under

/-- The shell has inherited the socket of its parent. -/
def inherited : ProcFs where
  netTcp := none
  netTcp6 := none
  descendants := [7, 8]
  pids := none
  fdLinks pid := if pid = 7 ∨ pid = 8 then some ["/dev/null", "socket:[5]"] else none
  exe := spawned.exe

theorem inherited_owner : ∃ pid, inherited.findPidBySocketInode 5 7 = .ok pid ∧ inherited.Holds pid 5 ∧
    ∀ holder depth, Forest.up spawned.parent depth holder = some 7 → inherited.Holds holder 5 →
      ∃ near ≤ depth, Forest.up spawned.parent near pid = some 7 :=
  owner_nearest spawned inherited 7 5 2 spawned_snapshot (by decide) 8 ⟨1, by decide⟩
    ⟨["/dev/null", "socket:[5]"], by decide, by decide⟩

end Processes

end OpenShell.Sandbox
