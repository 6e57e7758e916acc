import Mathlib.Algebra.Group.Nat.Defs
import Mathlib.Data.Finset.Basic
import Mathlib.Logic.Function.Basic
import OpenShell.Lib.Machine

namespace OpenShell.Sandbox.Reaper

/-! The set of managed children, which the threads that start a program share with the reaper of zombies. -/

/-- `pid_t` is signed, and 0 stands for a child without an id. -/
def registerManagedChild (managed : Finset Nat) (pid : Nat) : Finset Nat :=
  if pid < 2 ^ 31 then (if pid = 0 then managed else insert pid managed) else managed

def unregisterManagedChild (managed : Finset Nat) (pid : Nat) : Finset Nat :=
  if pid < 2 ^ 31 then (if pid = 0 then managed else managed.erase pid) else managed

def isManagedChild (managed : Finset Nat) (pid : Nat) : Bool := pid ∈ managed

/-- A child of the supervisor, as the kernel keeps it: who waits for it, and how it ended. An orphan has come to the
supervisor from a process that is gone. -/
structure Child where
  owner : Option Nat
  exited : Option Int
deriving DecidableEq

/-- A thread that starts a program, registers it, waits for it and unregisters it. A wait for a child that is not there
gives no status. -/
inductive Owner where
  | idle
  | spawned (pid : Nat)
  | waiting (pid : Nat)
  | waited (pid : Nat) (status : Option Int)
  | done (pid : Nat) (status : Option Int)
deriving DecidableEq

/-- The task that reaps: `waitid` has shown it a zombie, or it has looked up that id and found it not managed. -/
inductive Inspection where
  | idle
  | shown (pid : Nat)
  | unmanaged (pid : Nat)
deriving DecidableEq

def Inspection.pid : Inspection → Option Nat
  | .idle => none
  | .shown pid => some pid
  | .unmanaged pid => some pid

/-- `ended` is how the child of each owner has ended, which no one but the kernel knows. -/
structure State where
  children : Nat → Option Child
  managed : Finset Nat
  inspection : Inspection
  owners : Nat → Owner
  ended : Nat → Option Int

def State.initial : State := ⟨fun _ => none, ∅, .idle, fun _ => .idle, fun _ => none⟩

inductive Event where
  | spawn (owner pid : Nat)
  | register (owner : Nat)
  | exit (pid : Nat) (status : Int)
  | adopt (pid : Nat)
  | wait (owner : Nat)
  | unregister (owner : Nat)
  | peek (pid : Nat)
  | lookup
  | reap

namespace State

variable (state : State)

/-- The ids that the kernel gives are positive, and free. -/
def free (pid : Nat) : Prop := 0 < pid ∧ pid < 2 ^ 22 ∧ state.children pid = none

instance (pid : Nat) : Decidable (state.free pid) := inferInstanceAs (Decidable (_ ∧ _))

def setChild (pid : Nat) (child : Option Child) : State :=
  { state with children := Function.update state.children pid child }

def setOwner (owner : Nat) (phase : Owner) : State :=
  { state with owners := Function.update state.owners owner phase }

def spawn (owner pid : Nat) : State :=
  if state.owners owner = .idle ∧ state.free pid then
    (state.setChild pid (some ⟨some owner, none⟩)).setOwner owner (.spawned pid)
  else state

def register (owner : Nat) : State :=
  match state.owners owner with
  | .spawned pid =>
    { state.setOwner owner (.waiting pid) with managed := registerManagedChild state.managed pid }
  | _ => state

def exit (pid : Nat) (status : Int) : State :=
  match state.children pid with
  | some ⟨owner, none⟩ =>
    { state.setChild pid (some ⟨owner, some status⟩) with
      ended := match owner with
        | some owner => Function.update state.ended owner (some status)
        | none => state.ended }
  | _ => state

def adopt (pid : Nat) : State := if state.free pid then state.setChild pid (some ⟨none, none⟩) else state

/-- `Child::wait`, which goes by the id: it blocks while the child runs. -/
def wait (owner : Nat) : State :=
  match state.owners owner with
  | .waiting pid =>
    match state.children pid with
    | none => state.setOwner owner (.waited pid none)
    | some ⟨_, none⟩ => state
    | some ⟨_, some status⟩ => (state.setChild pid none).setOwner owner (.waited pid (some status))
  | _ => state

/-- After the wait, and for a `ProcessHandle` once more when it is dropped. -/
def unregister (owner : Nat) : State :=
  match state.owners owner with
  | .waited pid status | .done pid status =>
    { state.setOwner owner (.done pid status) with managed := unregisterManagedChild state.managed pid }
  | _ => state

/-- `waitid` shows a zombie and leaves it, whichever the kernel likes. -/
def peek (pid : Nat) : State :=
  match state.inspection, state.children pid with
  | .idle, some ⟨_, some _⟩ => { state with inspection := .shown pid }
  | _, _ => state

/-- The status of a managed child is left to its owner. -/
def lookup : State :=
  match state.inspection with
  | .shown pid =>
    if isManagedChild state.managed pid then { state with inspection := .idle }
    else { state with inspection := .unmanaged pid }
  | _ => state

/-- `waitpid` of what was found, if it is a zombie still. -/
def reap : State :=
  match state.inspection with
  | .unmanaged pid =>
    match state.children pid with
    | some ⟨_, some _⟩ => { state.setChild pid none with inspection := .idle }
    | _ => { state with inspection := .idle }
  | _ => state

end State

def step (state : State) : Event → State
  | .spawn owner pid => state.spawn owner pid
  | .register owner => state.register owner
  | .exit pid status => state.exit pid status
  | .adopt pid => state.adopt pid
  | .wait owner => state.wait owner
  | .unregister owner => state.unregister owner
  | .peek pid => state.peek pid
  | .lookup => state.lookup
  | .reap => state.reap

/-- A child does not end before it is registered, and an id is not given out again before its old owner has taken it
from the set, nor from when the reaper is shown it until it has waited for it. -/
def Orderly (state : State) : Event → Prop
  | .spawn _ pid => state.inspection.pid ≠ some pid
  | .exit pid _ => ∀ owner status, state.children pid = some ⟨some owner, status⟩ → state.owners owner = .waiting pid
  | .unregister owner => ∀ pid status,
      (state.owners owner = .waited pid status ∨ state.owners owner = .done pid status) →
        ∀ other, state.owners other ≠ .waiting pid
  | _ => True

/-! What every orderly run keeps. -/

structure Safe (state : State) : Prop where
  positive : ∀ pid child, state.children pid = some child → 0 < pid ∧ pid < 2 ^ 22
  owned : ∀ pid owner status, state.children pid = some ⟨some owner, status⟩ →
    state.owners owner = .spawned pid ∨ state.owners owner = .waiting pid
  started : ∀ pid owner, state.owners owner = .spawned pid → (state.children pid).map Child.owner = some (some owner)
  awaited : ∀ pid owner, state.owners owner = .waiting pid → (state.children pid).map Child.owner = some (some owner)
  registered : ∀ pid owner, state.owners owner = .waiting pid → pid ∈ state.managed
  guarded : ∀ pid owner status, state.children pid = some ⟨some owner, some status⟩ →
    state.owners owner = .waiting pid ∧ state.ended owner = some status
  shown : ∀ pid owner status, state.inspection.pid = some pid → state.children pid = some ⟨some owner, status⟩ →
    state.owners owner = .waiting pid
  unmanaged : ∀ pid child, state.inspection = .unmanaged pid → state.children pid = some child → child.owner = none
  told : ∀ owner pid status, state.owners owner = .waited pid status ∨ state.owners owner = .done pid status →
    status = state.ended owner ∧ status ≠ none

theorem safe_initial : Safe State.initial where
  positive := nofun
  owned := nofun
  started := nofun
  awaited := nofun
  registered := nofun
  guarded := nofun
  shown := nofun
  unmanaged := nofun
  told := by
    intro owner pid status phase
    rcases phase with phase | phase <;> cases phase

section Steps

variable {state : State}

theorem managed_register {managed : Finset Nat} {pid : Nat} (positive : 0 < pid ∧ pid < 2 ^ 22) :
    registerManagedChild managed pid = insert pid managed := by
  unfold registerManagedChild
  rw [if_pos (by omega), if_neg (by omega)]

theorem mem_unregister {managed : Finset Nat} {pid other : Nat} (member : other ∈ managed) (apart : other ≠ pid) :
    other ∈ unregisterManagedChild managed pid := by
  unfold unregisterManagedChild
  split
  · split
    · exact member
    · exact Finset.mem_erase.2 ⟨apart, member⟩
  · exact member

theorem Inspection.pid_unmanaged {inspection : Inspection} {pid : Nat} (found : inspection = .unmanaged pid) :
    inspection.pid = some pid := by
  rw [found]
  rfl

theorem Safe.spawn (safe : Safe state) (owner pid : Nat) (orderly : Orderly state (.spawn owner pid)) :
    Safe (state.spawn owner pid) := by
  have unseen : state.inspection.pid ≠ some pid := orderly
  have unfound : state.inspection ≠ .unmanaged pid := fun found => orderly (Inspection.pid_unmanaged found)
  unfold State.spawn
  split
  · rename_i fresh
    obtain ⟨idle, positive, small, free⟩ := fresh
    obtain ⟨positive, owned, started, awaited, registered, guarded, shown, unmanaged, told⟩ := safe
    refine ⟨?_, ?_, ?_, ?_, ?_, ?_, ?_, ?_, ?_⟩
    all_goals simp only [State.setChild, State.setOwner, Function.update_apply]
    all_goals grind
  · exact safe

theorem Safe.register (safe : Safe state) (owner : Nat) : Safe (state.register owner) := by
  unfold State.register
  split
  · rename_i pid spawned
    obtain ⟨positive, owned, started, awaited, registered, guarded, shown, unmanaged, told⟩ := safe
    obtain ⟨child, there, _⟩ := Option.map_eq_some_iff.1 (started pid owner spawned)
    rw [managed_register (positive pid child there)]
    refine ⟨?_, ?_, ?_, ?_, ?_, ?_, ?_, ?_, ?_⟩
    all_goals simp only [State.setOwner, Function.update_apply]
    all_goals grind
  · exact safe

theorem Safe.exit (safe : Safe state) (pid : Nat) (status : Int) (orderly : Orderly state (.exit pid status)) :
    Safe (state.exit pid status) := by
  unfold State.exit
  simp only [Orderly] at orderly
  split
  · rename_i owner running
    obtain ⟨positive, owned, started, awaited, registered, guarded, shown, unmanaged, told⟩ := safe
    cases owner with
    | none =>
      refine ⟨?_, ?_, ?_, ?_, ?_, ?_, ?_, ?_, ?_⟩
      all_goals simp only [State.setChild, Function.update_apply]
      all_goals grind
    | some owner =>
      have waiting := orderly owner none running
      refine ⟨?_, ?_, ?_, ?_, ?_, ?_, ?_, ?_, ?_⟩
      all_goals simp only [State.setChild, Function.update_apply]
      all_goals grind
  · exact safe

theorem Safe.adopt (safe : Safe state) (pid : Nat) : Safe (state.adopt pid) := by
  unfold State.adopt
  split
  · rename_i fresh
    obtain ⟨positive, small, free⟩ := fresh
    obtain ⟨positive, owned, started, awaited, registered, guarded, shown, unmanaged, told⟩ := safe
    refine ⟨?_, ?_, ?_, ?_, ?_, ?_, ?_, ?_, ?_⟩
    all_goals simp only [State.setChild, Function.update_apply]
    all_goals grind
  · exact safe

theorem Safe.wait (safe : Safe state) (owner : Nat) : Safe (state.wait owner) := by
  unfold State.wait
  split
  · rename_i pid waiting
    obtain ⟨⟨found, status⟩, there, same⟩ := Option.map_eq_some_iff.1 (safe.awaited pid owner waiting)
    cases same
    rw [there]
    cases status with
    | none => exact safe
    | some status =>
      obtain ⟨positive, owned, started, awaited, registered, guarded, shown, unmanaged, told⟩ := safe
      refine ⟨?_, ?_, ?_, ?_, ?_, ?_, ?_, ?_, ?_⟩
      all_goals simp only [State.setChild, State.setOwner, Function.update_apply]
      all_goals grind
  · exact safe

theorem Safe.unregister (safe : Safe state) (owner : Nat) (orderly : Orderly state (.unregister owner)) :
    Safe (state.unregister owner) := by
  have ended : ∀ pid status, (state.owners owner = .waited pid status ∨ state.owners owner = .done pid status) →
      Safe { state.setOwner owner (.done pid status) with
        managed := unregisterManagedChild state.managed pid } := by
    intro pid status phase
    have others := orderly pid status phase
    have kept : ∀ other held, state.owners other = .waiting held → held ∈ unregisterManagedChild state.managed pid := by
      intro other held waiting
      refine mem_unregister (safe.registered held other waiting) ?_
      intro same
      exact others other (same ▸ waiting)
    obtain ⟨positive, owned, started, awaited, registered, guarded, shown, unmanaged, told⟩ := safe
    refine ⟨?_, ?_, ?_, ?_, ?_, ?_, ?_, ?_, ?_⟩
    all_goals simp only [State.setOwner, Function.update_apply]
    all_goals grind
  unfold State.unregister
  split
  · rename_i pid status waited
    exact ended pid status (.inl waited)
  · rename_i pid status done
    exact ended pid status (.inr done)
  · exact safe

theorem Safe.peek (safe : Safe state) (pid : Nat) : Safe (state.peek pid) := by
  unfold State.peek
  split
  · rename_i owner status idle zombie
    obtain ⟨positive, owned, started, awaited, registered, guarded, shown, unmanaged, told⟩ := safe
    refine ⟨positive, owned, started, awaited, registered, guarded, ?_, nofun, told⟩
    intro other holder found same there
    cases same
    rw [zombie] at there
    cases there
    exact (guarded pid holder status zombie).1
  · exact safe

/-- What is shown and has an owner is managed. -/
theorem Safe.lookup (safe : Safe state) : Safe state.lookup := by
  unfold State.lookup
  split
  · rename_i pid isShown
    obtain ⟨positive, owned, started, awaited, registered, guarded, shown, unmanaged, told⟩ := safe
    have held : state.inspection.pid = some pid := by rw [isShown]; rfl
    split
    · exact ⟨positive, owned, started, awaited, registered, guarded, nofun, nofun, told⟩
    · rename_i absent
      refine ⟨positive, owned, started, awaited, registered, guarded, ?_, ?_, told⟩
      · intro other owner status same there
        cases same
        exact shown pid owner status held there
      · intro other child same there
        cases same
        obtain ⟨owner, status⟩ := child
        cases owner with
        | none => rfl
        | some owner =>
          have member := registered pid owner (shown pid owner status held there)
          exact absurd (decide_eq_true member) absent
  · exact safe

theorem Safe.reap (safe : Safe state) : Safe state.reap := by
  unfold State.reap
  split
  · rename_i pid found
    split
    · rename_i owner status there
      cases safe.unmanaged pid _ found there
      obtain ⟨positive, owned, started, awaited, registered, guarded, shown, unmanaged, told⟩ := safe
      refine ⟨?_, ?_, ?_, ?_, ?_, ?_, nofun, nofun, told⟩
      all_goals simp only [State.setChild, Function.update_apply]
      all_goals grind
    · obtain ⟨positive, owned, started, awaited, registered, guarded, shown, unmanaged, told⟩ := safe
      exact ⟨positive, owned, started, awaited, registered, guarded, nofun, nofun, told⟩
  · exact safe

theorem Safe.step (safe : Safe state) (event : Event) (orderly : Orderly state event) : Safe (step state event) := by
  cases event with
  | spawn owner pid => exact safe.spawn owner pid orderly
  | register owner => exact safe.register owner
  | exit pid status => exact safe.exit pid status orderly
  | adopt pid => exact safe.adopt pid
  | wait owner => exact safe.wait owner
  | unregister owner => exact safe.unregister owner orderly
  | peek pid => exact safe.peek pid
  | lookup => exact safe.lookup
  | reap => exact safe.reap

end Steps

theorem safe_run {events : List Event} (orderly : Machine.Along step Orderly .initial events) :
    Safe (Machine.run step .initial events) :=
  Machine.Along.invariant Safe (fun _ event _ safe held => safe.step event held) orderly safe_initial

/-- In every orderly interleaving the reaper takes orphans alone, and each owner that has waited was told how its own
child ended. -/
theorem own_status {events : List Event} (orderly : Machine.Along step Orderly .initial events) :
    (∀ owner pid status, (Machine.run step .initial events).owners owner = .waited pid status ∨
        (Machine.run step .initial events).owners owner = .done pid status →
      status = (Machine.run step .initial events).ended owner ∧ status ≠ none) ∧
    ∀ pid child, (Machine.run step .initial events).inspection = .unmanaged pid →
      (Machine.run step .initial events).children pid = some child → child.owner = none :=
  ⟨(safe_run orderly).told, (safe_run orderly).unmanaged⟩

section Example

/-- An orphan and a child of a session end at once. -/
def sessionRun : List Event :=
  [.spawn 0 5, .register 0, .adopt 6, .exit 5 3, .exit 6 0, .peek 5, .lookup, .peek 6, .lookup, .reap, .wait 0,
    .unregister 0]

theorem sessionRun_orderly : Machine.Along step Orderly .initial sessionRun := by
  refine ⟨nofun, trivial, trivial, ?_, ?_, trivial, trivial, trivial, trivial, trivial, trivial, ?_, trivial⟩
  · intro owner status found
    cases found
    rfl
  · intro owner status found
    cases found
  · intro pid status phase other waiting
    rcases phase with phase | phase
    · cases phase
      cases other with
      | zero => cases waiting
      | succ other => cases waiting
    · cases phase

theorem session_told : (Machine.run step .initial sessionRun).owners 0 = .done 5 (some 3) ∧
    some 3 = (Machine.run step .initial sessionRun).ended 0 :=
  ⟨rfl, ((own_status sessionRun_orderly).1 0 5 (some 3) (.inr rfl)).1⟩

/-- A child that ends before it is registered may be taken by the reaper, and then its owner learns nothing. -/
example : (Machine.run step .initial [.spawn 0 5, .exit 5 3, .peek 5, .lookup, .register 0, .reap, .wait 0]).owners 0 =
    .waited 5 none := by decide

/-- And so may one whose id the reaper was shown when another had it. -/
example : (Machine.run step .initial [.spawn 0 5, .register 0, .exit 5 3, .peek 5, .wait 0, .unregister 0, .spawn 1 5,
    .lookup, .register 1, .exit 5 4, .reap, .wait 1]).owners 1 = .waited 5 none := by decide

end Example

end OpenShell.Sandbox.Reaper
