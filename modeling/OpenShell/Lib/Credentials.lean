import OpenShell.Lib.Machine

/-! The ids of a process and the calls that change them. Of its capabilities those are kept that let it change ids. -/

namespace Credentials

structure Capabilities where
  setuid : Bool
  setgid : Bool
deriving DecidableEq

namespace Capabilities

def none : Capabilities := ⟨false, false⟩

def all : Capabilities := ⟨true, true⟩

def within (capabilities permitted : Capabilities) : Bool :=
  (!capabilities.setuid || permitted.setuid) && (!capabilities.setgid || permitted.setgid)

end Capabilities

structure Process where
  ruid : UInt32
  euid : UInt32
  suid : UInt32
  rgid : UInt32
  egid : UInt32
  sgid : UInt32
  groups : List UInt32
  permitted : Capabilities
  effective : Capabilities
  keepCaps : Bool
  noNewPrivs : Bool
deriving DecidableEq

namespace Process

variable (process : Process)

def holdsRoot : Bool := process.ruid = 0 || process.euid = 0 || process.suid = 0

/-- With the last id of root its capabilities go, unless they are to be kept. They take effect while the effective id is
that of root. -/
def withUids (ruid euid suid : UInt32) : Process :=
  let next : Process := { process with ruid := ruid, euid := euid, suid := suid }
  let surrenders := process.holdsRoot && !next.holdsRoot && !process.keepCaps
  let permitted := if surrenders then .none else process.permitted
  let effective :=
    if surrenders || (process.euid = 0 && euid ≠ 0) then .none
    else if process.euid ≠ 0 && euid = 0 then permitted
    else process.effective
  { next with permitted := permitted, effective := effective }

def setuid (uid : UInt32) : Option Process :=
  if process.effective.setuid then some (process.withUids uid uid uid)
  else if uid = process.ruid ∨ uid = process.suid then some (process.withUids process.ruid uid process.suid)
  else none

/-- `setresuid`, where an id that is not given stays. -/
def setresuid (ruid euid suid : Option UInt32) : Option Process :=
  let owns (id : Option UInt32) : Bool :=
    id.all fun uid => uid = process.ruid || uid = process.euid || uid = process.suid
  if process.effective.setuid || (owns ruid && owns euid && owns suid) then
    some (process.withUids (ruid.getD process.ruid) (euid.getD process.euid) (suid.getD process.suid))
  else none

def setgid (gid : UInt32) : Option Process :=
  if process.effective.setgid then some { process with rgid := gid, egid := gid, sgid := gid }
  else if gid = process.rgid ∨ gid = process.sgid then some { process with egid := gid }
  else none

def setgroups (groups : List UInt32) : Option Process :=
  if process.effective.setgid then some { process with groups := groups } else none

/-- `execve`. The file may belong to root and have the bit that sets the user id. -/
def exec (setsRoot : Bool) : Process :=
  let euid := if setsRoot && !process.noNewPrivs then 0 else process.euid
  let permitted : Capabilities :=
    if process.ruid = 0 ∨ euid = 0 then (if process.noNewPrivs then process.permitted else .all) else .none
  { process with
    euid := euid, suid := euid, permitted := permitted, effective := if euid = 0 then permitted else .none
    keepCaps := false }

end Process

inductive Call where
  | setuid (uid : UInt32)
  | setresuid (ruid euid suid : Option UInt32)
  | setgid (gid : UInt32)
  | setgroups (groups : List UInt32)
  | capset (effective : Capabilities)
  | keepCaps (on : Bool)
  | noNewPrivs
  | exec (setsRoot : Bool)

/-- A call that is refused changes nothing. -/
def step (process : Process) : Call → Process
  | .setuid uid => (process.setuid uid).getD process
  | .setresuid ruid euid suid => (process.setresuid ruid euid suid).getD process
  | .setgid gid => (process.setgid gid).getD process
  | .setgroups groups => (process.setgroups groups).getD process
  | .capset effective => if effective.within process.permitted then { process with effective := effective } else process
  | .keepCaps on => { process with keepCaps := on }
  | .noNewPrivs => { process with noNewPrivs := true }
  | .exec setsRoot => process.exec setsRoot

/-- Some calls make the process one of root. -/
def CanBecomeRoot (process : Process) : Prop := ∃ calls : List Call, (Machine.run step process calls).euid = 0

/-- No id is that of root, and the process may not choose another, nor gain that by a file that it executes. -/
structure Dropped (process : Process) : Prop where
  real : process.ruid ≠ 0
  euid : process.euid ≠ 0
  saved : process.suid ≠ 0
  permitted : process.permitted.setuid = false
  effective : process.effective.setuid = false
  sealed : process.noNewPrivs = true

variable {process : Process}

theorem holdsRoot_eq_false : process.holdsRoot = false ↔ process.ruid ≠ 0 ∧ process.euid ≠ 0 ∧ process.suid ≠ 0 := by
  simp [Process.holdsRoot, and_assoc]

theorem setuid_eq_some {uid : UInt32} {after : Process} (set : process.setuid uid = some after) :
    ∃ ruid suid, after = process.withUids ruid uid suid := by
  unfold Process.setuid at set
  split at set
  · cases set
    exact ⟨_, _, rfl⟩
  · split at set
    · cases set
      exact ⟨_, _, rfl⟩
    · cases set

theorem setuid_eq_none {uid : UInt32} :
    process.setuid uid = none ↔ process.effective.setuid = false ∧ uid ≠ process.ruid ∧ uid ≠ process.suid := by
  unfold Process.setuid
  cases process.effective.setuid with
  | true => simp
  | false => simp [not_or]

/-- The calls on groups leave everything about the user. -/
structure SameUser (before after : Process) : Prop where
  ruid : after.ruid = before.ruid
  euid : after.euid = before.euid
  suid : after.suid = before.suid
  keepCaps : after.keepCaps = before.keepCaps
  noNewPrivs : after.noNewPrivs = before.noNewPrivs

theorem SameUser.trans {first second third : Process} (one : SameUser first second) (two : SameUser second third) :
    SameUser first third :=
  ⟨two.ruid.trans one.ruid, two.euid.trans one.euid, two.suid.trans one.suid, two.keepCaps.trans one.keepCaps,
    two.noNewPrivs.trans one.noNewPrivs⟩

theorem setgid_sameUser {gid : UInt32} {after : Process} (set : process.setgid gid = some after) :
    SameUser process after := by
  unfold Process.setgid at set
  split at set
  · cases set
    exact ⟨rfl, rfl, rfl, rfl, rfl⟩
  · split at set
    · cases set
      exact ⟨rfl, rfl, rfl, rfl, rfl⟩
    · cases set

theorem setgroups_sameUser {groups : List UInt32} {after : Process} (set : process.setgroups groups = some after) :
    SameUser process after := by
  unfold Process.setgroups at set
  split at set
  · cases set
    exact ⟨rfl, rfl, rfl, rfl, rfl⟩
  · cases set

theorem withUids_permitted {ruid euid suid : UInt32} (root : process.holdsRoot = true)
    (fresh : process.keepCaps = false) (plain : (process.withUids ruid euid suid).holdsRoot = false) :
    (process.withUids ruid euid suid).permitted = .none := by
  have left : ({ process with ruid := ruid, euid := euid, suid := suid } : Process).holdsRoot = false :=
    holdsRoot_eq_false.2 (holdsRoot_eq_false.1 plain)
  have surrenders : (process.holdsRoot &&
      !({ process with ruid := ruid, euid := euid, suid := suid } : Process).holdsRoot &&
      !process.keepCaps) = true := by
    rw [left, root, fresh]
    rfl
  exact if_pos surrenders

theorem Dropped.withUids (dropped : Dropped process) {ruid euid suid : UInt32}
    (plain : ruid ≠ 0 ∧ euid ≠ 0 ∧ suid ≠ 0) : Dropped (process.withUids ruid euid suid) where
  real := plain.1
  euid := plain.2.1
  saved := plain.2.2
  permitted := by
    have ids := holdsRoot_eq_false.2 ⟨dropped.real, dropped.euid, dropped.saved⟩
    simp [Process.withUids, ids, dropped.permitted]
  effective := by
    have ids := holdsRoot_eq_false.2 ⟨dropped.real, dropped.euid, dropped.saved⟩
    simp [Process.withUids, ids, dropped.euid, plain.2.1, dropped.effective]
  sealed := dropped.sealed

theorem Dropped.setuid (dropped : Dropped process) {uid : UInt32} {after : Process}
    (set : process.setuid uid = some after) : Dropped after := by
  unfold Process.setuid at set
  rw [dropped.effective, if_neg Bool.false_ne_true] at set
  split at set
  · rename_i own
    have plain : uid ≠ 0 := by
      rcases own with same | same
      · exact same ▸ dropped.real
      · exact same ▸ dropped.saved
    cases set
    exact dropped.withUids ⟨dropped.real, plain, dropped.saved⟩
  · cases set

theorem Dropped.setresuid (dropped : Dropped process) {ruid euid suid : Option UInt32} {after : Process}
    (set : process.setresuid ruid euid suid = some after) : Dropped after := by
  have chosen : ∀ (id : Option UInt32) (held : UInt32), held ≠ 0 →
      (id.all fun uid => uid = process.ruid || uid = process.euid || uid = process.suid) = true → id.getD held ≠ 0 := by
    intro id held plain owned
    cases id with
    | none => exact plain
    | some uid =>
      simp only [Option.all_some, Bool.or_eq_true, decide_eq_true_eq] at owned
      rcases owned with (same | same) | same
      · exact same ▸ dropped.real
      · exact same ▸ dropped.euid
      · exact same ▸ dropped.saved
  unfold Process.setresuid at set
  simp only [dropped.effective, Bool.false_or, Bool.and_eq_true] at set
  split at set
  · rename_i owned
    cases set
    exact dropped.withUids ⟨chosen ruid _ dropped.real owned.1.1, chosen euid _ dropped.euid owned.1.2,
      chosen suid _ dropped.saved owned.2⟩
  · cases set

theorem Dropped.exec (dropped : Dropped process) (setsRoot : Bool) : Dropped (process.exec setsRoot) := by
  have unchanged : (process.exec setsRoot).euid = process.euid := by simp [Process.exec, dropped.sealed]
  have plain : ¬(process.ruid = 0 ∨ process.euid = 0) := not_or.2 ⟨dropped.real, dropped.euid⟩
  refine ⟨dropped.real, unchanged ▸ dropped.euid, ?_, ?_, ?_, dropped.sealed⟩
  · have same : (process.exec setsRoot).suid = (process.exec setsRoot).euid := rfl
    rw [same, unchanged]
    exact dropped.euid
  · simp [Process.exec, dropped.sealed, plain, Capabilities.none]
  · simp [Process.exec, dropped.sealed, dropped.euid, Capabilities.none]

theorem Dropped.step (dropped : Dropped process) (call : Call) : Dropped (step process call) := by
  cases call with
  | setuid uid =>
    simp only [Credentials.step]
    cases set : process.setuid uid with
    | none => exact dropped
    | some after => exact dropped.setuid set
  | setresuid ruid euid suid =>
    simp only [Credentials.step]
    cases set : process.setresuid ruid euid suid with
    | none => exact dropped
    | some after => exact dropped.setresuid set
  | setgid gid =>
    simp only [Credentials.step, Process.setgid]
    split
    · exact ⟨dropped.real, dropped.euid, dropped.saved, dropped.permitted, dropped.effective, dropped.sealed⟩
    · split
      · exact ⟨dropped.real, dropped.euid, dropped.saved, dropped.permitted, dropped.effective, dropped.sealed⟩
      · exact dropped
  | setgroups groups =>
    simp only [Credentials.step, Process.setgroups]
    split
    · exact ⟨dropped.real, dropped.euid, dropped.saved, dropped.permitted, dropped.effective, dropped.sealed⟩
    · exact dropped
  | capset wanted =>
    simp only [Credentials.step]
    split
    · rename_i inside
      simp only [Capabilities.within, dropped.permitted, Bool.or_false, Bool.and_eq_true, Bool.not_eq_true'] at inside
      exact ⟨dropped.real, dropped.euid, dropped.saved, dropped.permitted, inside.1, dropped.sealed⟩
    · exact dropped
  | keepCaps on =>
    exact ⟨dropped.real, dropped.euid, dropped.saved, dropped.permitted, dropped.effective, dropped.sealed⟩
  | noNewPrivs => exact ⟨dropped.real, dropped.euid, dropped.saved, dropped.permitted, dropped.effective, rfl⟩
  | exec setsRoot => exact dropped.exec setsRoot

theorem Dropped.not_canBecomeRoot (dropped : Dropped process) : ¬CanBecomeRoot process := by
  intro able
  obtain ⟨calls, reached⟩ := able
  have still : Dropped (Machine.run Credentials.step process calls) :=
    Machine.run_invariant Dropped (fun held call _ kept => kept.step call) dropped
  exact still.euid reached

/-- A process without the ids of root may get them through a capability that it kept, or a file that sets them. -/
theorem canBecomeRoot_iff (plain : process.holdsRoot = false) (idle : process.effective.setuid = false) :
    CanBecomeRoot process ↔ process.permitted.setuid = true ∨ process.noNewPrivs = false := by
  constructor
  · intro able
    by_contra neither
    simp only [not_or, Bool.not_eq_true, Bool.not_eq_false] at neither
    obtain ⟨real, euid, saved⟩ := holdsRoot_eq_false.1 plain
    exact Dropped.not_canBecomeRoot ⟨real, euid, saved, neither.1, idle, neither.2⟩ able
  · intro way
    rcases way with kept | unsealed
    · refine ⟨[.capset ⟨true, false⟩, .setuid 0], ?_⟩
      simp [Machine.run, Credentials.step, Capabilities.within, kept, Process.setuid, Process.withUids]
    · refine ⟨[.exec true], ?_⟩
      simp [Machine.run, Credentials.step, Process.exec, unsealed]

theorem canBecomeRoot_of_root (root : process.euid = 0) : CanBecomeRoot process := ⟨[], root⟩

end Credentials
