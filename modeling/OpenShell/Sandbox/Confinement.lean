import OpenShell.Lib.Credentials
import OpenShell.Lib.Results
import OpenShell.Lib.SyscallFilters
import OpenShell.Policy.Paths
import OpenShell.Sandbox.BaselinePaths
import OpenShell.Server.SafePolicies

namespace OpenShell.Sandbox.Confinement

open Credentials SyscallFilters PathNames

/-! The policy as the supervisor holds it. -/

structure FilesystemPolicy where
  readOnly : List String := []
  readWrite : List String := []
  includeWorkdir : Bool := true

inductive NetworkMode where
  | block
  | proxy
  | allow
deriving DecidableEq

structure ProxyPolicy where
  httpAddr : Option String

structure NetworkPolicy where
  mode : NetworkMode := .block
  proxy : Option ProxyPolicy := none

inductive LandlockCompatibility where
  | bestEffort
  | hardRequirement
deriving DecidableEq

structure LandlockPolicy where
  compatibility : LandlockCompatibility := .bestEffort

structure ProcessPolicy where
  runAsUser : Option String := none
  runAsGroup : Option String := none

structure SandboxPolicy where
  version : UInt32
  filesystem : FilesystemPolicy
  network : NetworkPolicy
  landlock : LandlockPolicy
  process : ProcessPolicy

def FilesystemPolicy.ofProto (proto : Policy.FilesystemPolicy) : FilesystemPolicy where
  readOnly := proto.readOnly.map Policy.normalizePath
  readWrite := proto.readWrite.map Policy.normalizePath
  includeWorkdir := proto.includeWorkdir

def LandlockPolicy.ofProto (proto : Policy.LandlockPolicy) : LandlockPolicy :=
  if proto.compatibility = "hard_requirement" then ⟨.hardRequirement⟩ else ⟨.bestEffort⟩

def ProcessPolicy.ofProto (proto : Policy.ProcessPolicy) : ProcessPolicy where
  runAsUser := if proto.runAsUser.isEmpty then none else some proto.runAsUser
  runAsGroup := if proto.runAsGroup.isEmpty then none else some proto.runAsGroup

/-- `TryFrom`. In a cluster the network is always that of the proxy. -/
def SandboxPolicy.ofProto (proto : Policy.SandboxPolicy) : SandboxPolicy where
  version := proto.version
  filesystem := proto.filesystem.elim {} FilesystemPolicy.ofProto
  network := { mode := .proxy, proxy := some ⟨none⟩ }
  landlock := proto.landlock.elim {} LandlockPolicy.ofProto
  process := proto.process.elim {} ProcessPolicy.ofProto

/-! What the child holds before it executes the program. -/

inductive Access where
  | read
  | all
deriving DecidableEq

structure PathBeneath where
  path : String
  access : Access
deriving DecidableEq

/-- A process may do what its ids, each of its Landlock domains and each of its filters let it do. -/
structure Child where
  process : Process
  domains : List (List PathBeneath) := []
  filters : List Rules := []

def Child.refuses (child : Child) (call : SystemCall) : Bool := child.filters.any fun rules => rules.refuses call

/-! The ids. -/

structure User where
  name : String
  uid : UInt32
  gid : UInt32

structure Group where
  gid : UInt32

/-- The two databases, `/etc/passwd` and `/etc/group`. -/
structure Accounts where
  userNamed : String → Except String (Option User)
  userOf : UInt32 → Except String (Option User)
  groupNamed : String → Except String (Option Group)
  groupOf : UInt32 → Except String (Option Group)
  groupList : String → UInt32 → List UInt32

section Privileges

variable (accounts : Accounts)

def okOrElse {α : Type} (found : Option α) (problem : String) : Except String α := found.elim (.error problem) .ok

/-- A call of the kernel that refuses with `EPERM`. -/
def permitted (after : Option Process) : Except String Process := okOrElse after "EPERM: Operation not permitted"

def findUser (name : Option String) (process : Process) : Except String User :=
  match name with
  | some name => do okOrElse (← accounts.userNamed name) ("Sandbox user not found: " ++ name)
  | none => do okOrElse (← accounts.userOf process.euid) "Failed to resolve current user"

def findGroup (name : Option String) (user : User) : Except String Group :=
  match name with
  | some name => do okOrElse (← accounts.groupNamed name) ("Sandbox group not found: " ++ name)
  | none => do okOrElse (← accounts.groupOf user.gid) "Failed to resolve user primary group"

def initgroups (user : User) (group : Group) (process : Process) : Except String Process :=
  if user.name.toList.contains (Char.ofNat 0) then .error "Invalid user name"
  else permitted (process.setgroups (accounts.groupList user.name group.gid))

def changeGroup (group : Group) (process : Process) : Except String Process := do
  let process ← permitted (process.setgid group.gid)
  if process.egid = group.gid then .ok process
  else .error ("Privilege drop verification failed: expected effective GID " ++ toString group.gid ++ ", got " ++
    toString process.egid)

/-- The new user must not be able to go back: the attempt is made, and it has to fail. -/
def changeUser (user : User) (process : Process) : Except String Process := do
  let process ← permitted (process.setuid user.uid)
  if process.euid ≠ user.uid then
    .error ("Privilege drop verification failed: expected effective UID " ++ toString user.uid ++ ", got " ++
      toString process.euid)
  else match process.setuid 0 with
    | none => .ok process
    | some regained =>
      if user.uid ≠ 0 then
        .error ("Privilege drop verification failed: process can still re-acquire root (UID 0) " ++
          "after switching to UID " ++ toString user.uid)
      else .ok regained

def dropTo (userName groupName : Option String) (process : Process) : Except String Process := do
  let user ← findUser accounts userName process
  let group ← findGroup accounts groupName user
  let process ← (if userName.isSome then initgroups accounts user group process else .ok process)
  let process ← changeGroup group process
  if userName.isSome then changeUser user process else .ok process

def given (name : Option String) : Option String := name.filter fun name => !name.isEmpty

/-- Where nothing is configured, root falls back to `sandbox:sandbox`. -/
def dropPrivileges (policy : ProcessPolicy) (process : Process) : Except String Process :=
  if (given policy.runAsUser).isNone && (given policy.runAsGroup).isNone then
    if process.euid = 0 then dropTo accounts (some "sandbox") (some "sandbox") process else .ok process
  else dropTo accounts (given policy.runAsUser) (given policy.runAsGroup) process

end Privileges

/-! The kernel's own restrictions. -/

inductive IoErrorKind where
  | notFound
  | permissionDenied
  | other

structure IoError where
  kind : IoErrorKind
  rawOsError : Option Int
  text : String

inductive PathFdError where
  | openCall (source : IoError)
  | other (text : String)

def PathFdError.text : PathFdError → String
  | .openCall source => source.text
  | .other text => text

def classifyIoError (error : IoError) : String :=
  match error.kind with
  | .notFound => "path does not exist"
  | .permissionDenied => "permission denied"
  | .other =>
    if error.rawOsError = some 40 then "too many symlink levels"
    else if error.rawOsError = some 36 then "path name too long"
    else if error.rawOsError = some 20 then "path component is not a directory"
    else "unexpected error"

def classifyPathFdError : PathFdError → String
  | .openCall source => classifyIoError source
  | .other _ => "unexpected error"

/-- What `restrict_self` does: whether it has set the bit against new privileges, and whether the rules are enforced. -/
structure Restriction where
  sealed : Bool
  enforced : Except String Bool

/-- The kernel at hand, with the two crates that speak to it. -/
structure Kernel where
  handleAccess : LandlockCompatibility → Except String Unit
  create : Except String Unit
  openPath : String → Except PathFdError Unit
  addRule : PathBeneath → Except String Unit
  restrictSelf : LandlockCompatibility → List PathBeneath → Restriction
  setNoNewPrivs : Except String Unit
  applyFilter : Rules → Except String Unit

section Landlock

variable (kernel : Kernel) (policy : SandboxPolicy) (workdir : Option String)

/-- Two paths with the same components are one path. -/
def samePath (first second : String) : Bool := components first.toList = components second.toList

def readWritePaths : List String :=
  let readWrite := policy.filesystem.readWrite
  match workdir with
  | some dir =>
    if policy.filesystem.includeWorkdir && !readWrite.any (samePath dir) then readWrite ++ [dir] else readWrite
  | none => readWrite

def tryOpenPath (path : String) : Except String Bool :=
  match kernel.openPath path with
  | .ok () => .ok true
  | .error problem =>
    match policy.landlock.compatibility with
    | .bestEffort => .ok false
    | .hardRequirement =>
      .error ("Landlock path unavailable in hard_requirement mode: " ++ path ++ " (" ++ classifyPathFdError problem ++
        "): " ++ problem.text)

/-- The loop over the paths of one access. -/
def addPaths (access : Access) : List PathBeneath → List String → Except String (List PathBeneath)
  | rules, [] => .ok rules
  | rules, path :: rest => do
    let opened ← tryOpenPath kernel policy path
    if opened then do
      kernel.addRule ⟨path, access⟩
      addPaths access (rules ++ [⟨path, access⟩]) rest
    else addPaths access rules rest

def buildRuleset : Except String (List PathBeneath) := do
  kernel.handleAccess policy.landlock.compatibility
  kernel.create
  let rules ← addPaths kernel policy .read [] policy.filesystem.readOnly
  let rules ← addPaths kernel policy .all rules (readWritePaths policy workdir)
  if rules.isEmpty then
    .error ("Landlock ruleset has zero valid paths — all " ++
      toString (policy.filesystem.readOnly.length + (readWritePaths policy workdir).length) ++
      " path(s) failed to open. Refusing to apply an empty ruleset that would block all filesystem access.")
  else .ok rules

def degrade (problem : String) (child : Child) : Except String Child :=
  match policy.landlock.compatibility with
  | .bestEffort => .ok child
  | .hardRequirement => .error problem

def landlockApply (child : Child) : Except String Child :=
  if policy.filesystem.readOnly.isEmpty && (readWritePaths policy workdir).isEmpty then .ok child
  else match buildRuleset kernel policy workdir with
    | .error problem => degrade policy problem child
    | .ok rules =>
      let restriction := kernel.restrictSelf policy.landlock.compatibility rules
      let child := { child with
        process := { child.process with noNewPrivs := child.process.noNewPrivs || restriction.sealed } }
      match restriction.enforced with
      | .error problem => degrade policy problem child
      | .ok enforced => .ok (if enforced then { child with domains := rules :: child.domains } else child)

end Landlock

/-! The filter of system calls. -/

inductive Syscall where
  | socket
  | memfdCreate
  | ptrace
  | bpf
  | processVmReadv
  | ioUringSetup
  | mount
  | execveat
  | unshare
  | seccomp
deriving DecidableEq

/-- The numbers of the calls on an architecture. -/
structure Arch where
  number : Syscall → Int
  injective : Function.Injective number

def afPacket : UInt64 := 17
def afBluetooth : UInt64 := 31
def afVsock : UInt64 := 40
def afInet : UInt64 := 2
def afInet6 : UInt64 := 10
def afNetlink : UInt64 := 16

def atEmptyPath : UInt64 := 0x1000
def cloneNewuser : UInt64 := 0x10000000
def seccompSetModeFilter : UInt64 := 1

section Seccomp

variable (arch : Arch)

def blockedDomains (allowInet : Bool) : List UInt64 :=
  [afPacket, afBluetooth, afVsock] ++ if allowInet then [] else [afInet, afInet6, afNetlink]

def addSocketDomainRule (rules : Rules) (domain : UInt64) : Rules :=
  rules.push (arch.number .socket) [⟨0, .eq, domain⟩]

def addMaskedArgRule (rules : Rules) (syscall : Int) (index : Fin 6) (flag : UInt64) : Rules :=
  rules.push syscall [⟨index, .maskedEq flag, flag⟩]

def buildFilter (allowInet : Bool) : Rules :=
  let rules := (blockedDomains allowInet).foldl (addSocketDomainRule arch) Rules.empty
  let rules := rules.entry (arch.number .memfdCreate)
  let rules := rules.entry (arch.number .ptrace)
  let rules := rules.entry (arch.number .bpf)
  let rules := rules.entry (arch.number .processVmReadv)
  let rules := rules.entry (arch.number .ioUringSetup)
  let rules := rules.entry (arch.number .mount)
  let rules := addMaskedArgRule rules (arch.number .execveat) 4 atEmptyPath
  let rules := addMaskedArgRule rules (arch.number .unshare) 0 cloneNewuser
  rules.push (arch.number .seccomp) [⟨0, .eq, seccompSetModeFilter⟩]

def seccompApply (kernel : Kernel) (policy : SandboxPolicy) (child : Child) : Except String Child :=
  match policy.network.mode with
  | .allow => .ok child
  | mode => do
    let filter := buildFilter arch (mode = .proxy)
    kernel.setNoNewPrivs
    kernel.applyFilter filter
    .ok { child with process := { child.process with noNewPrivs := true }, filters := filter :: child.filters }

end Seccomp

/-- The closure that runs between `fork` and `exec`. `netns` is the outcome of `setns`, where a namespace is entered. -/
def preExec (accounts : Accounts) (kernel : Kernel) (arch : Arch) (netns : Option (Except String Unit))
    (policy : SandboxPolicy) (workdir : Option String) (child : Child) : Except String Child := do
  netns.getD (.ok ())
  let process ← dropPrivileges accounts policy.process child.process
  let child ← landlockApply kernel policy workdir { child with process := process }
  seccompApply arch kernel policy child

/-! The user that the program runs as. -/

section Users

variable {accounts : Accounts} {process after : Process}

theorem permitted_ok {outcome : Option Process} (passed : permitted outcome = .ok after) : outcome = some after := by
  cases outcome with
  | none => cases passed
  | some process => exact congrArg some (Except.ok.inj passed)

theorem okOrElse_ok {α : Type} {found : Option α} {problem : String} {value : α}
    (passed : okOrElse found problem = .ok value) : found = some value := by
  cases found with
  | none => cases passed
  | some held => exact congrArg some (Except.ok.inj passed)

theorem initgroups_sameUser {user : User} {group : Group} (ran : initgroups accounts user group process = .ok after) :
    SameUser process after := by
  unfold initgroups at ran
  split at ran
  · cases ran
  · exact setgroups_sameUser (permitted_ok ran)

theorem changeGroup_sameUser {group : Group} (ran : changeGroup group process = .ok after) :
    SameUser process after := by
  obtain ⟨changed, set, ran⟩ := Results.ok_of_bind ran
  split at ran
  · cases ran
    exact setgid_sameUser (permitted_ok set)
  · cases ran

theorem changeUser_noNewPrivs {user : User} (ran : changeUser user process = .ok after) :
    after.noNewPrivs = process.noNewPrivs := by
  obtain ⟨changed, set, ran⟩ := Results.ok_of_bind ran
  obtain ⟨ruid, suid, rfl⟩ := setuid_eq_some (permitted_ok set)
  split at ran
  · cases ran
  · split at ran
    · cases ran
      rfl
    · rename_i regained again
      obtain ⟨ruid, suid, rfl⟩ := setuid_eq_some again
      split at ran
      · cases ran
      · cases ran
        rfl

theorem changeUser_root {user : User} (root : user.uid = 0) (ran : changeUser user process = .ok after) :
    after.euid = 0 := by
  obtain ⟨changed, set, ran⟩ := Results.ok_of_bind ran
  obtain ⟨ruid, suid, rfl⟩ := setuid_eq_some (permitted_ok set)
  split at ran
  · cases ran
  · split at ran
    · cases ran
      exact root
    · rename_i regained again
      obtain ⟨ruid, suid, rfl⟩ := setuid_eq_some again
      split at ran
      · cases ran
      · cases ran
        rfl

/-- The attempt to go back has failed, so that no id and no effective capability leads there. -/
theorem changeUser_plain {user : User} (plain : user.uid ≠ 0) (ran : changeUser user process = .ok after) :
    after.holdsRoot = false ∧ after.effective.setuid = false ∧
      (process.euid = 0 → process.keepCaps = false → after.permitted = .none) := by
  obtain ⟨changed, set, ran⟩ := Results.ok_of_bind ran
  obtain ⟨ruid, suid, rfl⟩ := setuid_eq_some (permitted_ok set)
  split at ran
  · cases ran
  · rename_i verified
    split at ran
    · rename_i refused
      cases ran
      obtain ⟨idle, real, saved⟩ := setuid_eq_none.1 refused
      have gone := holdsRoot_eq_false.2 ⟨real.symm, plain, saved.symm⟩
      refine ⟨gone, idle, ?_⟩
      intro root fresh
      have held : process.holdsRoot = true := by simp [Process.holdsRoot, root]
      exact withUids_permitted held fresh gone
    · cases ran

/-- The user that a drop from root ends at; `none` where the process keeps its own. -/
def runsAs (policy : ProcessPolicy) : Option String :=
  if (given policy.runAsUser).isNone && (given policy.runAsGroup).isNone then some "sandbox" else given policy.runAsUser

def KeepsRoot (accounts : Accounts) (policy : ProcessPolicy) : Prop :=
  ∀ name, runsAs policy = some name → ∃ user, accounts.userNamed name = .ok (some user) ∧ user.uid = 0

/-- Without the ids of root, and without a capability to get them. -/
structure Unprivileged (process : Process) : Prop where
  plain : process.holdsRoot = false
  idle : process.effective.setuid = false
  permitted : process.permitted = .none

theorem dropTo_ok {userName groupName : Option String} (ran : dropTo accounts userName groupName process = .ok after) :
    ∃ user before, findUser accounts userName process = .ok user ∧ SameUser process before ∧
      (if userName.isSome then changeUser user before else .ok before) = .ok after := by
  obtain ⟨user, found, ran⟩ := Results.ok_of_bind ran
  obtain ⟨group, _, ran⟩ := Results.ok_of_bind ran
  obtain ⟨listed, initial, ran⟩ := Results.ok_of_bind ran
  obtain ⟨changed, grouped, ran⟩ := Results.ok_of_bind ran
  refine ⟨user, changed, found, ?_, ran⟩
  have first : SameUser process listed := by
    split at initial
    · exact initgroups_sameUser initial
    · cases initial
      exact ⟨rfl, rfl, rfl, rfl, rfl⟩
  exact first.trans (changeGroup_sameUser grouped)

theorem dropTo_noNewPrivs {userName groupName : Option String}
    (ran : dropTo accounts userName groupName process = .ok after) : after.noNewPrivs = process.noNewPrivs := by
  obtain ⟨user, before, _, same, last⟩ := dropTo_ok ran
  split at last
  · exact (changeUser_noNewPrivs last).trans same.noNewPrivs
  · cases last
    exact same.noNewPrivs

theorem findUser_named {name : String} {user : User} (found : findUser accounts (some name) process = .ok user) :
    accounts.userNamed name = .ok (some user) := by
  obtain ⟨entry, looked, found⟩ := Results.ok_of_bind found
  rw [looked, okOrElse_ok found]

theorem dropTo_named {name : String} {groupName : Option String} (root : process.euid = 0)
    (fresh : process.keepCaps = false) (ran : dropTo accounts (some name) groupName process = .ok after) :
    ∃ user, accounts.userNamed name = .ok (some user) ∧ (user.uid = 0 → after.euid = 0) ∧
      (user.uid ≠ 0 → Unprivileged after) := by
  obtain ⟨user, before, found, same, last⟩ := dropTo_ok ran
  refine ⟨user, findUser_named found, fun zero => changeUser_root zero last, ?_⟩
  intro plain
  obtain ⟨gone, idle, surrendered⟩ := changeUser_plain plain last
  exact ⟨gone, idle, surrendered (same.euid.trans root) (same.keepCaps.trans fresh)⟩

theorem dropPrivileges_noNewPrivs {policy : ProcessPolicy} (ran : dropPrivileges accounts policy process = .ok after) :
    after.noNewPrivs = process.noNewPrivs := by
  unfold dropPrivileges at ran
  split at ran
  · split at ran
    · exact dropTo_noNewPrivs ran
    · cases ran
      rfl
  · exact dropTo_noNewPrivs ran

theorem dropPrivileges_root {policy : ProcessPolicy} (root : process.euid = 0) (fresh : process.keepCaps = false)
    (ran : dropPrivileges accounts policy process = .ok after) :
    (KeepsRoot accounts policy → after.euid = 0) ∧ (¬KeepsRoot accounts policy → Unprivileged after) := by
  have named : ∀ name groupName, runsAs policy = some name → dropTo accounts (some name) groupName process = .ok after →
      (KeepsRoot accounts policy → after.euid = 0) ∧ (¬KeepsRoot accounts policy → Unprivileged after) := by
    intro name groupName runs dropped
    obtain ⟨user, found, zero, plain⟩ := dropTo_named root fresh dropped
    have keeps : KeepsRoot accounts policy ↔ user.uid = 0 := by
      constructor
      · intro keeps
        obtain ⟨other, again, isRoot⟩ := keeps name runs
        rw [found] at again
        cases again
        exact isRoot
      · intro isRoot other same
        rw [runs] at same
        cases same
        exact ⟨user, found, isRoot⟩
    exact ⟨fun held => zero (keeps.1 held), fun held => plain (fun isRoot => held (keeps.2 isRoot))⟩
  unfold dropPrivileges at ran
  split at ran
  · rename_i unset
    exact named "sandbox" _ (by rw [runsAs, if_pos unset]) ran
  · rename_i set
    cases user : given policy.runAsUser with
    | some name =>
      rw [user] at ran
      exact named name _ (by rw [runsAs, if_neg set, user]) ran
    | none =>
      rw [user] at ran
      have keeps : KeepsRoot accounts policy := by
        intro name runs
        rw [runsAs, if_neg set, user] at runs
        cases runs
      obtain ⟨_, before, _, same, last⟩ := dropTo_ok ran
      cases last
      exact ⟨fun _ => same.euid.trans root, fun held => absurd keeps held⟩

end Users

/-! The rules for paths. -/

section Paths

variable {kernel : Kernel} {policy : SandboxPolicy} {workdir : Option String}

def listedRules (policy : SandboxPolicy) (workdir : Option String) : List PathBeneath :=
  policy.filesystem.readOnly.map (⟨·, .read⟩) ++ (readWritePaths policy workdir).map (⟨·, .all⟩)

def Kernel.opens (kernel : Kernel) (rule : PathBeneath) : Bool := (kernel.openPath rule.path).isOk

/-- The rules of the paths that could be opened. -/
def openedRules (kernel : Kernel) (policy : SandboxPolicy) (workdir : Option String) : List PathBeneath :=
  (listedRules policy workdir).filter kernel.opens

/-- Each step up to the last succeeds: with one failure there are no restrictions at all. -/
def reachesRestrict (kernel : Kernel) (policy : SandboxPolicy) (workdir : Option String) : Bool :=
  (kernel.handleAccess policy.landlock.compatibility).isOk && kernel.create.isOk &&
    !(openedRules kernel policy workdir).isEmpty &&
    (openedRules kernel policy workdir).all fun rule => (kernel.addRule rule).isOk

def restriction (kernel : Kernel) (policy : SandboxPolicy) (workdir : Option String) : Restriction :=
  if reachesRestrict kernel policy workdir then
    kernel.restrictSelf policy.landlock.compatibility (openedRules kernel policy workdir)
  else ⟨false, .error ""⟩

def enforces (kernel : Kernel) (policy : SandboxPolicy) (workdir : Option String) : Bool :=
  match (restriction kernel policy workdir).enforced with
  | .ok enforced => enforced
  | .error _ => false

theorem tryOpenPath_ok {path : String} {opened : Bool} (tried : tryOpenPath kernel policy path = .ok opened) :
    opened = (kernel.openPath path).isOk ∧ (policy.landlock.compatibility = .hardRequirement → opened = true) := by
  unfold tryOpenPath at tried
  split at tried
  · rename_i found
    cases tried
    rw [found]
    exact ⟨rfl, fun _ => rfl⟩
  · rename_i problem missing
    split at tried
    · rename_i lenient
      cases tried
      rw [missing, lenient]
      exact ⟨rfl, nofun⟩
    · cases tried

theorem tryOpenPath_bestEffort (lenient : policy.landlock.compatibility = .bestEffort) (path : String) :
    tryOpenPath kernel policy path = .ok (kernel.openPath path).isOk := by
  unfold tryOpenPath
  rw [lenient]
  cases kernel.openPath path <;> rfl

/-- What the loop adds: the paths that open, and under a hard requirement all of them. -/
theorem addPaths_ok {access : Access} {rules built : List PathBeneath} {paths : List String}
    (ran : addPaths kernel policy access rules paths = .ok built) :
    built = rules ++ (paths.map (⟨·, access⟩)).filter kernel.opens ∧
      (∀ rule ∈ (paths.map (⟨·, access⟩)).filter kernel.opens, (kernel.addRule rule).isOk = true) ∧
      (policy.landlock.compatibility = .hardRequirement →
        ∀ rule ∈ paths.map (PathBeneath.mk · access), kernel.opens rule = true) := by
  induction paths generalizing rules with
  | nil =>
    cases ran
    simp
  | cons path rest ih =>
    obtain ⟨opened, tried, ran⟩ := Results.ok_of_bind ran
    obtain ⟨found, strict⟩ := tryOpenPath_ok tried
    have here : kernel.opens ⟨path, access⟩ = opened := found.symm
    rw [List.map_cons]
    cases opened with
    | true =>
      rw [if_pos rfl] at ran
      obtain ⟨done, added, ran⟩ := Results.ok_of_bind ran
      obtain ⟨same, each, all⟩ := ih ran
      rw [List.filter_cons_of_pos here]
      refine ⟨by rw [same, List.append_assoc, List.singleton_append], ?_, ?_⟩
      · intro rule member
        rcases List.mem_cons.1 member with first | later
        · rw [first, added]
          rfl
        · exact each rule later
      · intro hard rule member
        rcases List.mem_cons.1 member with first | later
        · rw [first]
          exact here
        · exact all hard rule later
    | false =>
      rw [if_neg Bool.false_ne_true] at ran
      obtain ⟨same, each, all⟩ := ih ran
      rw [List.filter_cons_of_neg (by rw [here]; exact Bool.false_ne_true)]
      refine ⟨same, each, ?_⟩
      intro hard
      exact absurd (strict hard) Bool.false_ne_true

theorem addPaths_bestEffort (lenient : policy.landlock.compatibility = .bestEffort) {access : Access}
    {paths : List String} (added : ∀ rule ∈ (paths.map (PathBeneath.mk · access)).filter kernel.opens,
      (kernel.addRule rule).isOk = true) (rules : List PathBeneath) :
    ∃ built, addPaths kernel policy access rules paths = .ok built := by
  induction paths generalizing rules with
  | nil => exact ⟨rules, rfl⟩
  | cons path rest ih =>
    unfold addPaths
    rw [tryOpenPath_bestEffort lenient]
    rw [List.map_cons] at added
    cases found : (kernel.openPath path).isOk with
    | true =>
      have here : kernel.opens ⟨path, access⟩ = true := found
      rw [List.filter_cons_of_pos here] at added
      have first := added _ List.mem_cons_self
      cases put : kernel.addRule ⟨path, access⟩ with
      | error problem =>
        rw [put] at first
        cases first
      | ok done =>
        have later := fun rule member => added rule (List.mem_cons_of_mem _ member)
        obtain ⟨built, ran⟩ := ih later (rules ++ [⟨path, access⟩])
        refine ⟨built, ?_⟩
        exact ran
    | false =>
      have here : kernel.opens ⟨path, access⟩ = false := found
      rw [List.filter_cons_of_neg (by rw [here]; exact Bool.false_ne_true)] at added
      exact ih added rules

theorem opened_eq : openedRules kernel policy workdir =
    (policy.filesystem.readOnly.map (PathBeneath.mk · .read)).filter kernel.opens ++
      ((readWritePaths policy workdir).map (PathBeneath.mk · .all)).filter kernel.opens := by
  rw [openedRules, listedRules, List.filter_append]

theorem buildRuleset_ok {rules : List PathBeneath} (ran : buildRuleset kernel policy workdir = .ok rules) :
    rules = openedRules kernel policy workdir ∧ reachesRestrict kernel policy workdir = true ∧
      (policy.landlock.compatibility = .hardRequirement →
        openedRules kernel policy workdir = listedRules policy workdir) := by
  obtain ⟨done, handled, ran⟩ := Results.ok_of_bind ran
  obtain ⟨done, created, ran⟩ := Results.ok_of_bind ran
  obtain ⟨first, reads, ran⟩ := Results.ok_of_bind ran
  obtain ⟨second, writes, ran⟩ := Results.ok_of_bind ran
  obtain ⟨readRules, readAdded, readAll⟩ := addPaths_ok reads
  obtain ⟨writeRules, writeAdded, writeAll⟩ := addPaths_ok writes
  have whole : second = openedRules kernel policy workdir := by
    rw [writeRules, readRules, List.nil_append, opened_eq]
  split at ran
  · cases ran
  · rename_i filled
    cases ran
    refine ⟨whole, ?_, ?_⟩
    · have added : ((openedRules kernel policy workdir).all fun rule => (kernel.addRule rule).isOk) = true := by
        rw [opened_eq, List.all_append, Bool.and_eq_true, List.all_eq_true, List.all_eq_true]
        exact ⟨readAdded, writeAdded⟩
      rw [reachesRestrict, handled, created, ← whole, Bool.eq_false_of_not_eq_true filled, whole, added]
      rfl
    · intro hard
      refine List.filter_eq_self.2 ?_
      intro rule member
      rcases List.mem_append.1 member with read | write
      · exact readAll hard rule read
      · exact writeAll hard rule write

theorem buildRuleset_bestEffort (lenient : policy.landlock.compatibility = .bestEffort)
    (reaches : reachesRestrict kernel policy workdir = true) :
    buildRuleset kernel policy workdir = .ok (openedRules kernel policy workdir) := by
  simp only [reachesRestrict, Bool.and_eq_true, List.all_eq_true, Bool.not_eq_true'] at reaches
  obtain ⟨⟨⟨handled, created⟩, filled⟩, added⟩ := reaches
  rw [opened_eq] at added
  obtain ⟨first, reads⟩ :=
    addPaths_bestEffort lenient (fun rule member => added rule (List.mem_append_left _ member)) []
  obtain ⟨second, writes⟩ :=
    addPaths_bestEffort lenient (fun rule member => added rule (List.mem_append_right _ member)) first
  have whole : second = openedRules kernel policy workdir := by
    rw [(addPaths_ok writes).1, (addPaths_ok reads).1, List.nil_append, opened_eq]
  unfold buildRuleset
  cases handle : kernel.handleAccess policy.landlock.compatibility with
  | error problem =>
    rw [handle] at handled
    cases handled
  | ok done =>
    cases create : kernel.create with
    | error problem =>
      rw [create] at created
      cases created
    | ok done =>
      change (addPaths kernel policy .read [] policy.filesystem.readOnly >>= fun rules =>
        addPaths kernel policy .all rules (readWritePaths policy workdir) >>= fun rules => _) = _
      rw [reads]
      change (addPaths kernel policy .all first (readWritePaths policy workdir) >>= fun rules => _) = _
      rw [writes]
      change (if second.isEmpty then _ else _) = _
      rw [whole, filled, if_neg Bool.false_ne_true]

theorem listed_empty : (listedRules policy workdir).isEmpty =
    (policy.filesystem.readOnly.isEmpty && (readWritePaths policy workdir).isEmpty) := by
  unfold listedRules
  cases policy.filesystem.readOnly with
  | nil => simp [List.isEmpty_map]
  | cons path rest => rfl

/-- With no path listed nothing could be opened. -/
theorem reaches_of_unlisted (unlisted : (listedRules policy workdir).isEmpty = true) :
    reachesRestrict kernel policy workdir = false := by
  have none : openedRules kernel policy workdir = [] := by
    rw [openedRules, List.isEmpty_iff.1 unlisted]
    rfl
  simp [reachesRestrict, none]

def Child.restricted (child : Child) (kernel : Kernel) (policy : SandboxPolicy) (workdir : Option String) : Child :=
  { child with
    process := { child.process with
      noNewPrivs := child.process.noNewPrivs || (restriction kernel policy workdir).sealed }
    domains := if enforces kernel policy workdir then openedRules kernel policy workdir :: child.domains
      else child.domains }

theorem restricted_of_unreached {child : Child} (unreached : reachesRestrict kernel policy workdir = false) :
    child.restricted kernel policy workdir = child := by
  simp [Child.restricted, enforces, restriction, unreached]

/-- The restrictions are whole or absent, and under a hard requirement they are those that were asked for. -/
theorem landlockApply_ok {child after : Child} (ran : landlockApply kernel policy workdir child = .ok after) :
    after = child.restricted kernel policy workdir ∧
      (policy.landlock.compatibility = .hardRequirement → listedRules policy workdir ≠ [] →
        reachesRestrict kernel policy workdir = true ∧
          openedRules kernel policy workdir = listedRules policy workdir ∧
          (restriction kernel policy workdir).enforced = .ok (enforces kernel policy workdir)) := by
  unfold landlockApply at ran
  rw [← listed_empty] at ran
  split at ran
  · rename_i unlisted
    cases ran
    refine ⟨(restricted_of_unreached (reaches_of_unlisted unlisted)).symm, ?_⟩
    intro _ listed
    exact absurd (List.isEmpty_iff.1 unlisted) listed
  · split at ran
    · rename_i problem failed
      unfold degrade at ran
      split at ran
      · rename_i lenient
        cases ran
        have unreached : reachesRestrict kernel policy workdir = false := by
          rw [← Bool.not_eq_true]
          intro reaches
          rw [buildRuleset_bestEffort lenient reaches] at failed
          cases failed
        refine ⟨(restricted_of_unreached unreached).symm, ?_⟩
        intro hard
        rw [lenient] at hard
        cases hard
      · cases ran
    · rename_i rules built
      obtain ⟨rfl, reaches, whole⟩ := buildRuleset_ok built
      have called : restriction kernel policy workdir =
          kernel.restrictSelf policy.landlock.compatibility (openedRules kernel policy workdir) := by
        rw [restriction, if_pos reaches]
      simp only [← called] at ran
      split at ran
      · rename_i problem refused
        unfold degrade at ran
        split at ran
        · rename_i lenient
          cases ran
          refine ⟨by simp [Child.restricted, enforces, refused], ?_⟩
          intro hard
          rw [lenient] at hard
          cases hard
        · cases ran
      · rename_i enforced accepted
        have verdict : enforces kernel policy workdir = enforced := by rw [enforces, accepted]
        refine ⟨?_, fun hard _ => ⟨reaches, whole hard, by rw [accepted, verdict]⟩⟩
        cases ran
        cases enforced with
        | true => simp [Child.restricted, verdict]
        | false => simp [Child.restricted, verdict]

end Paths

/-! The calls that are refused. -/

section Calls

variable {arch : Arch} {allowInet : Bool} {call : SystemCall}

/-- The uses of a call that are refused, by what the kernel reads of its arguments. -/
def Forbidden (allowInet : Bool) (call : SystemCall) : Syscall → Prop
  | .socket => ∃ domain ∈ blockedDomains allowInet, call.word 0 = domain.toUInt32
  | .execveat => (call.word 4).toBitVec.getLsbD 12 = true
  | .unshare => (call.word 0).toBitVec.getLsbD 28 = true
  | .seccomp => call.word 0 = 1
  | _ => True

def Refused (arch : Arch) (allowInet : Bool) (call : SystemCall) : Prop :=
  ∃ syscall, call.number = arch.number syscall ∧ Forbidden allowInet call syscall

def filterRules (allowInet : Bool) : Syscall → List Rule
  | .socket => (blockedDomains allowInet).map fun domain => [⟨0, .eq, domain⟩]
  | .execveat => [[⟨4, .maskedEq atEmptyPath, atEmptyPath⟩]]
  | .unshare => [[⟨0, .maskedEq cloneNewuser, cloneNewuser⟩]]
  | .seccomp => [[⟨0, .eq, seccompSetModeFilter⟩]]
  | _ => []

theorem socketRules_eq : (blockedDomains allowInet).foldl (addSocketDomainRule arch) Rules.empty =
    Function.update Rules.empty (arch.number .socket) (some (filterRules allowInet .socket)) :=
  Rules.foldl_push (arch.number .socket) (fun domain => [⟨0, .eq, domain⟩]) (blockedDomains allowInet)
    (by cases allowInet <;> decide) Rules.empty

theorem buildFilter_number (syscall : Syscall) :
    buildFilter arch allowInet (arch.number syscall) = some (filterRules allowInet syscall) := by
  unfold buildFilter
  rw [socketRules_eq]
  cases syscall <;>
    simp [Rules.entry, Rules.push, addMaskedArgRule, arch.injective.eq_iff, Rules.empty, filterRules]

theorem buildFilter_unlisted {number : Int} (unlisted : ∀ syscall, number ≠ arch.number syscall) :
    buildFilter arch allowInet number = none := by
  unfold buildFilter
  rw [socketRules_eq]
  simp [Rules.entry, Rules.push, addMaskedArgRule, Function.update_apply, unlisted, Rules.empty]

/-- A flag of one bit is set exactly when the masked comparison holds. -/
theorem masked_iff (word : UInt32) (bit : Nat) (inside : bit < 32) {mask : UInt32}
    (single : mask.toBitVec = BitVec.twoPow 32 bit) :
    word &&& mask = mask &&& mask ↔ word.toBitVec.getLsbD bit = true := by
  rw [← UInt32.toBitVec_inj, UInt32.toBitVec_and, UInt32.toBitVec_and, single, BitVec.and_self, BitVec.and_twoPow]
  cases word.toBitVec.getLsbD bit with
  | true => simp
  | false =>
    have filled : BitVec.twoPow 32 bit ≠ 0#32 := by
      intro empty
      have bits := congrArg (fun held => held.getLsbD bit) empty
      simp [inside] at bits
    simpa using filled.symm

theorem matches_forbidden (syscall : Syscall) :
    (filterRules allowInet syscall = [] ∨ ∃ rule ∈ filterRules allowInet syscall, Rule.matches rule call = true) ↔
      Forbidden allowInet call syscall := by
  cases syscall with
  | socket =>
    have filled : filterRules allowInet .socket ≠ [] := by cases allowInet <;> decide
    rw [or_iff_right filled]
    simp [filterRules, Forbidden, Rule.matches, Condition.holds]
  | execveat =>
    have single : atEmptyPath.toUInt32.toBitVec = BitVec.twoPow 32 12 := by decide
    have masked := masked_iff (call.word 4) 12 (by decide) single
    simpa [filterRules, Forbidden, Rule.matches, Condition.holds] using masked
  | unshare =>
    have single : cloneNewuser.toUInt32.toBitVec = BitVec.twoPow 32 28 := by decide
    have masked := masked_iff (call.word 0) 28 (by decide) single
    simpa [filterRules, Forbidden, Rule.matches, Condition.holds] using masked
  | seccomp => simp [filterRules, Forbidden, Rule.matches, Condition.holds, seccompSetModeFilter]
  | _ => simp [filterRules, Forbidden]

theorem buildFilter_refuses : (buildFilter arch allowInet).refuses call = true ↔ Refused arch allowInet call := by
  unfold Refused
  by_cases listed : ∃ syscall, call.number = arch.number syscall
  · obtain ⟨syscall, number⟩ := listed
    have found : buildFilter arch allowInet call.number = some (filterRules allowInet syscall) := by
      rw [number, buildFilter_number]
    rw [Rules.refuses_iff found, matches_forbidden]
    constructor
    · intro forbidden
      exact ⟨syscall, number, forbidden⟩
    · intro refused
      obtain ⟨other, same, forbidden⟩ := refused
      rwa [arch.injective (number.symm.trans same)]
  · have unlisted : buildFilter arch allowInet call.number = none := buildFilter_unlisted (not_exists.1 listed)
    rw [Rules.refuses_of_none unlisted]
    constructor
    · intro impossible
      cases impossible
    · intro refused
      obtain ⟨syscall, number, _⟩ := refused
      exact absurd ⟨syscall, number⟩ listed

end Calls

/-! The child as a whole. -/

section Started

variable {accounts : Accounts} {kernel : Kernel} {arch : Arch} {netns : Option (Except String Unit)}
  {policy : SandboxPolicy} {workdir : Option String} {child after : Child}

def Child.filtered (child : Child) (arch : Arch) (mode : NetworkMode) : Child :=
  if mode = .allow then child
  else { child with
    process := { child.process with noNewPrivs := true }
    filters := buildFilter arch (mode = .proxy) :: child.filters }

theorem seccompApply_ok (ran : seccompApply arch kernel policy child = .ok after) :
    after = child.filtered arch policy.network.mode := by
  unfold seccompApply at ran
  cases mode : policy.network.mode with
  | allow =>
    rw [mode] at ran
    cases ran
    rfl
  | block =>
    rw [mode] at ran
    obtain ⟨done, _, ran⟩ := Results.ok_of_bind ran
    obtain ⟨done, _, ran⟩ := Results.ok_of_bind ran
    cases ran
    rfl
  | proxy =>
    rw [mode] at ran
    obtain ⟨done, _, ran⟩ := Results.ok_of_bind ran
    obtain ⟨done, _, ran⟩ := Results.ok_of_bind ran
    cases ran
    rfl

theorem preExec_ok (started : preExec accounts kernel arch netns policy workdir child = .ok after) :
    ∃ process restricted, dropPrivileges accounts policy.process child.process = .ok process ∧
      landlockApply kernel policy workdir { child with process := process } = .ok restricted ∧
      after = restricted.filtered arch policy.network.mode := by
  obtain ⟨done, _, started⟩ := Results.ok_of_bind started
  obtain ⟨process, dropped, started⟩ := Results.ok_of_bind started
  obtain ⟨restricted, applied, started⟩ := Results.ok_of_bind started
  exact ⟨process, restricted, dropped, applied, seccompApply_ok started⟩

theorem filtered_process (child : Child) (mode : NetworkMode) :
    (child.filtered arch mode).process =
      { child.process with noNewPrivs := child.process.noNewPrivs || decide (mode ≠ .allow) } := by
  unfold Child.filtered
  by_cases mode = .allow <;> simp_all

/-- Nothing keeps a program from gaining privileges by a file that it executes. -/
def unsealed (kernel : Kernel) (policy : SandboxPolicy) (workdir : Option String) (child : Child) : Bool :=
  !child.process.noNewPrivs && policy.network.mode = .allow && !(restriction kernel policy workdir).sealed

theorem started_process (started : preExec accounts kernel arch netns policy workdir child = .ok after) :
    ∃ process, dropPrivileges accounts policy.process child.process = .ok process ∧
      after.process = { process with noNewPrivs := !unsealed kernel policy workdir child } := by
  obtain ⟨process, restricted, dropped, applied, rfl⟩ := preExec_ok started
  refine ⟨process, dropped, ?_⟩
  rw [filtered_process, (landlockApply_ok applied).1, Child.restricted, dropPrivileges_noNewPrivs dropped]
  cases mode : policy.network.mode <;> simp [unsealed, mode]

theorem started_root_iff (root : child.process.euid = 0) (fresh : child.process.keepCaps = false)
    (started : preExec accounts kernel arch netns policy workdir child = .ok after) :
    CanBecomeRoot after.process ↔
      KeepsRoot accounts policy.process ∨ unsealed kernel policy workdir child = true := by
  obtain ⟨process, dropped, same⟩ := started_process started
  obtain ⟨kept, lost⟩ := dropPrivileges_root root fresh dropped
  by_cases keeps : KeepsRoot accounts policy.process
  · have isRoot : after.process.euid = 0 := by
      rw [same]
      exact kept keeps
    exact iff_of_true (canBecomeRoot_of_root isRoot) (.inl keeps)
  · have plain := lost keeps
    have moved : Unprivileged after.process := by
      rw [same]
      exact ⟨plain.plain, plain.idle, plain.permitted⟩
    rw [canBecomeRoot_iff moved.plain moved.idle, or_iff_right keeps, moved.permitted, same]
    simp [Capabilities.none]

/-- Where the network is left alone, only the Landlock crate sets the bit against new privileges. -/
theorem program_root_iff (root : child.process.euid = 0) (fresh : child.process.keepCaps = false)
    (started : preExec accounts kernel arch netns policy workdir child = .ok after) :
    CanBecomeRoot after.process ↔
      KeepsRoot accounts policy.process ∨ unsealed kernel policy workdir child = true :=
  started_root_iff root fresh started

section Example

def plainAccounts : Accounts where
  userNamed name := .ok (if name = "sandbox" then some ⟨name, 998, 998⟩ else none)
  userOf uid := .ok (if uid = 0 then some ⟨"root", 0, 0⟩ else none)
  groupNamed name := .ok (if name = "sandbox" then some ⟨998⟩ else none)
  groupOf gid := .ok (some ⟨gid⟩)
  groupList _ gid := [gid]

def plainKernel : Kernel where
  handleAccess _ := .ok ()
  create := .ok ()
  openPath path := if path = "/app" then .error (.openCall ⟨.notFound, some 2, "No such file"⟩) else .ok ()
  addRule _ := .ok ()
  restrictSelf _ _ := ⟨true, .ok true⟩
  setNoNewPrivs := .ok ()
  applyFilter _ := .ok ()

def syscallNumber : Syscall → Int
  | .socket => 41
  | .memfdCreate => 319
  | .ptrace => 101
  | .bpf => 321
  | .processVmReadv => 310
  | .ioUringSetup => 425
  | .mount => 165
  | .execveat => 322
  | .unshare => 272
  | .seccomp => 317

theorem syscallNumber_injective : Function.Injective syscallNumber := by
  intro first second
  cases first <;> cases second <;> decide

def x86_64 : Arch := ⟨syscallNumber, syscallNumber_injective⟩

def rootChild : Child := { process := ⟨0, 0, 0, 0, 0, 0, [0], .all, .all, false, false⟩ }

def localPolicy (process : ProcessPolicy) : SandboxPolicy where
  version := 1
  filesystem := { readOnly := ["/usr", "/app"], readWrite := ["/tmp"] }
  network := { mode := .proxy, proxy := some ⟨none⟩ }
  landlock := {}
  process := process

def starts (process : ProcessPolicy) (workdir : Option String) : Except String Child :=
  preExec plainAccounts plainKernel x86_64 none (localPolicy process) workdir rootChild

theorem starts_group : ∃ after, starts ⟨none, some "sandbox"⟩ none = .ok after := ⟨_, rfl⟩

theorem starts_unnamed : ∃ after, starts {} (some "/sandbox") = .ok after := ⟨_, rfl⟩

/-- A policy of the disk that names a group alone leaves the program to root. -/
theorem group_alone_keeps_root :
    ∃ after, starts ⟨none, some "sandbox"⟩ none = .ok after ∧ CanBecomeRoot after.process := by
  obtain ⟨after, started⟩ := starts_group
  have unnamed : runsAs ⟨none, some "sandbox"⟩ = none := by decide
  refine ⟨after, started, (program_root_iff rfl rfl started).2 (.inl ?_)⟩
  intro name named
  cases unnamed.symm.trans named

end Example

/-- The paths that the program is confined to: those that open, or none at all; a hard requirement is met in full. -/
theorem program_domains (started : preExec accounts kernel arch netns policy workdir child = .ok after) :
    after.domains = (if enforces kernel policy workdir then openedRules kernel policy workdir :: child.domains
      else child.domains) ∧
    (policy.landlock.compatibility = .hardRequirement → listedRules policy workdir ≠ [] →
      reachesRestrict kernel policy workdir = true ∧
        openedRules kernel policy workdir = listedRules policy workdir ∧
        (restriction kernel policy workdir).enforced = .ok (enforces kernel policy workdir)) := by
  obtain ⟨process, restricted, _, applied, rfl⟩ := preExec_ok started
  obtain ⟨rfl, hard⟩ := landlockApply_ok applied
  refine ⟨?_, hard⟩
  unfold Child.filtered
  split <;> rfl

theorem missing_path_skipped : ∃ after, starts {} (some "/sandbox") = .ok after ∧
    after.domains = [[⟨"/usr", .read⟩, ⟨"/tmp", .all⟩, ⟨"/sandbox", .all⟩]] := by
  obtain ⟨after, started⟩ := starts_unnamed
  refine ⟨after, started, ?_⟩
  rw [(program_domains started).1]
  rfl

/-- What a program, or a child of it, does later to its own restrictions. -/
inductive Act where
  | credentials (call : Call)
  | restrict (rules : List PathBeneath)
  | filter (rules : Rules)

def Child.act (child : Child) : Act → Child
  | .credentials call => { child with process := Credentials.step child.process call }
  | .restrict rules => { child with domains := rules :: child.domains }
  | .filter rules => { child with filters := rules :: child.filters }

def Act.refuses (act : Act) (call : SystemCall) : Bool :=
  match act with
  | .filter rules => rules.refuses call
  | _ => false

theorem refuses_run (child : Child) (acts : List Act) (call : SystemCall) :
    (Machine.run Child.act child acts).refuses call = (child.refuses call || acts.any (Act.refuses · call)) := by
  induction acts generalizing child with
  | nil => rw [Machine.run_nil, List.any_nil, Bool.or_false]
  | cons act rest ih =>
    have first : (child.act act).refuses call = (child.refuses call || act.refuses call) := by
      cases act with
      | credentials => exact (Bool.or_false _).symm
      | restrict => exact (Bool.or_false _).symm
      | filter rules => exact Bool.or_comm _ _
    rw [Machine.run_cons, ih, first, List.any_cons, Bool.or_assoc]

/-- Whatever the program does, the calls that the policy forbids stay refused, and no others but those that it asks for
itself. -/
theorem program_refuses (started : preExec accounts kernel arch netns policy workdir child = .ok after)
    (acts : List Act) (call : SystemCall) :
    (Machine.run Child.act after acts).refuses call = true ↔
      child.refuses call = true ∨
      policy.network.mode ≠ .allow ∧ Refused arch (policy.network.mode = .proxy) call ∨
      ∃ act ∈ acts, Act.refuses act call = true := by
  obtain ⟨process, restricted, _, applied, rfl⟩ := preExec_ok started
  obtain ⟨rfl, _⟩ := landlockApply_ok applied
  rw [refuses_run, Bool.or_eq_true, List.any_eq_true, ← or_assoc]
  refine or_congr ?_ Iff.rfl
  rw [← buildFilter_refuses]
  unfold Child.filtered
  by_cases open_ : policy.network.mode = .allow
  · rw [if_pos open_]
    simp [open_, Child.refuses, Child.restricted]
  · rw [if_neg open_]
    simp [open_, Child.refuses, Child.restricted, or_comm]

theorem ptrace_stays_refused : ∃ after, starts {} (some "/sandbox") = .ok after ∧
    (Machine.run Child.act after [.filter Rules.empty, .credentials (.exec true)]).refuses ⟨101, fun _ => 0⟩ =
      true := by
  obtain ⟨after, started⟩ := starts_unnamed
  have proxied : (localPolicy {}).network.mode ≠ .allow := nofun
  exact ⟨after, started, (program_refuses started _ _).2 (.inr (.inl ⟨proxied, .ptrace, rfl, trivial⟩))⟩

end Started

/-! The policies of the gateway. -/

section Stored

open Policy Server

variable {Blob : Type} {accounts : Accounts}

/-- The policy that a sandbox enforces, of the one that it fetches. -/
def enforcedPolicy (image : Image) (policy : Policy.SandboxPolicy) : SandboxPolicy :=
  SandboxPolicy.ofProto (image.enrichProtoBaselinePaths policy).1

theorem enforcedPolicy_process (image : Image) (policy : Policy.SandboxPolicy) :
    (enforcedPolicy image policy).process = policy.process.elim {} ProcessPolicy.ofProto := by
  unfold enforcedPolicy Image.enrichProtoBaselinePaths
  split <;> rfl

theorem runsAs_of_safe {policy : Policy.SandboxPolicy} (safe : policy.Safe) (image : Image) :
    runsAs (enforcedPolicy image policy).process = some "sandbox" := by
  have clean := (safe_iff.1 safe).1
  unfold processViolations at clean
  rw [enforcedPolicy_process]
  cases process : policy.process with
  | none => rfl
  | some declared =>
    rw [process] at clean
    have user : declared.runAsUser = "sandbox" := by
      by_contra other
      simp [other] at clean
    simp only [Option.elim, ProcessPolicy.ofProto, user]
    rfl

/-- A policy that the gateway accepts keeps the program from root on every kernel and with every user database in which
`sandbox` is not root itself. -/
theorem started_safe {policy : Policy.SandboxPolicy} (safe : policy.Safe) {image : Image} {kernel : Kernel}
    {arch : Arch} {netns : Option (Except String Unit)} {workdir : Option String} {child after : Child}
    (root : child.process.euid = 0) (fresh : child.process.keepCaps = false)
    (started : preExec accounts kernel arch netns (enforcedPolicy image policy) workdir child = .ok after) :
    CanBecomeRoot after.process ↔ ∃ user, accounts.userNamed "sandbox" = .ok (some user) ∧ user.uid = 0 := by
  have sealed : unsealed kernel (enforcedPolicy image policy) workdir child = false := by
    simp [unsealed, enforcedPolicy, SandboxPolicy.ofProto]
  rw [started_root_iff root fresh started, sealed]
  simp [KeepsRoot, runsAs_of_safe safe]

/-- The revisions that a gateway stores, over its runs, and the programs that they are enforced on. -/
theorem stored_program_root_iff (wire : Wire Blob) (lower : String → String) (calls : List (StoredCall Blob))
    (vetted : StoredCall.AllVetted wire lower {} calls) (record : PolicyRecord Blob)
    (member : record ∈ (StoredCall.outcomes wire lower {} calls).policies) :
    ∃ policy, record.policyPayload = wire.encodePolicy policy ∧
      ∀ (accounts : Accounts) (image : Image) (kernel : Kernel) (arch : Arch) (netns : Option (Except String Unit))
        (workdir : Option String) (child after : Child), child.process.euid = 0 → child.process.keepCaps = false →
        preExec accounts kernel arch netns (enforcedPolicy image policy) workdir child = .ok after →
        (CanBecomeRoot after.process ↔ ∃ user, accounts.userNamed "sandbox" = .ok (some user) ∧ user.uid = 0) := by
  have stored := (safePolicies_run Store.safePolicies_empty).2 vetted calls (List.prefix_refl _)
  obtain ⟨policy, encoded, safe⟩ := stored.revisions record member
  refine ⟨policy, encoded, ?_⟩
  intro accounts image kernel arch netns workdir child after root fresh started
  exact started_safe safe root fresh started

/-- A sandbox without a policy, and a first update with one that leaves the process to the gateway. -/
def plainRun : List (StoredCall Message) :=
  [.create blankSandbox, .update { name := "beta", policy := some {} }]

theorem plainRun_vetted : StoredCall.AllVetted plainWire String.toLower {} plainRun := by
  refine ⟨trivial, ?_, trivial⟩
  intro sandbox spec policy backfills
  cases backfills.submitted
  unfold SandboxPolicy.Safe
  decide

theorem plainRun_confined : ∃ record ∈ (StoredCall.outcomes plainWire String.toLower {} plainRun).policies,
    ∃ policy, record.policyPayload = plainWire.encodePolicy policy ∧
      ∀ (accounts : Accounts) (image : Image) (kernel : Kernel) (arch : Arch) (netns : Option (Except String Unit))
        (workdir : Option String) (child after : Child), child.process.euid = 0 → child.process.keepCaps = false →
        preExec accounts kernel arch netns (enforcedPolicy image policy) workdir child = .ok after →
        (CanBecomeRoot after.process ↔ ∃ user, accounts.userNamed "sandbox" = .ok (some user) ∧ user.uid = 0) := by
  have stored : (StoredCall.outcomes plainWire String.toLower {} plainRun).policies.rows.length = 1 := rfl
  obtain ⟨record, rows⟩ := List.length_eq_one_iff.1 stored
  have member : record ∈ (StoredCall.outcomes plainWire String.toLower {} plainRun).policies := by
    show record ∈ (StoredCall.outcomes plainWire String.toLower {} plainRun).policies.rows
    rw [rows]
    exact List.mem_singleton_self record
  exact ⟨record, member, stored_program_root_iff plainWire String.toLower plainRun plainRun_vetted record member⟩

end Stored

end OpenShell.Sandbox.Confinement
