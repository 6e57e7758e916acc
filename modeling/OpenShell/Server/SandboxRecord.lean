import OpenShell.Lib.ReadWrite
import OpenShell.Lib.Text
import OpenShell.Policy.Model

namespace OpenShell.Server.SandboxRecord

open OpenShell.Policy ReadWrite

/-! The record of one sandbox and the five operations that write it, each of them whole. -/

inductive SandboxPhase where
  | unspecified | provisioning | ready | error | deleting | unknown
deriving DecidableEq

structure SandboxCondition where
  type : String
  status : String
  reason : String := ""
  message : String := ""
  lastTransitionTime : String := ""
deriving DecidableEq

structure SandboxStatus where
  sandboxName : String := ""
  agentPod : String := ""
  agentFd : String := ""
  sandboxFd : String := ""
  conditions : List SandboxCondition := []
deriving DecidableEq

structure SandboxSpec where
  policy : Option SandboxPolicy := none
  gpu : Bool := false

structure Sandbox where
  id : String
  name : String
  namespaceName : String
  spec : Option SandboxSpec := none
  status : Option SandboxStatus := none
  phase : SandboxPhase := .unspecified
  createdAtMs : Int := 0
  currentPolicyVersion : UInt32 := 0

def eqIgnoreAsciiCase (first second : String) : Bool :=
  Text.toAsciiLowercase first.toList = Text.toAsciiLowercase second.toList

def gpuUnschedulableMessage : String :=
  "GPU sandbox could not be scheduled on the active gateway. Another GPU sandbox may already be using the available " ++
  "GPU, or the gateway may not currently be able to satisfy GPU placement. Please refer to documentation and use " ++
  "`openshell doctor` commands to inspect GPU support and gateway configuration."

def rewriteCondition (condition : SandboxCondition) : SandboxCondition :=
  if condition.type = "Ready" ∧ eqIgnoreAsciiCase condition.status "false" ∧
      eqIgnoreAsciiCase condition.reason "Unschedulable" then
    { condition with message := gpuUnschedulableMessage }
  else condition

def rewriteUserFacingConditions (status : Option SandboxStatus) (spec : Option SandboxSpec) : Option SandboxStatus :=
  if spec.any (·.gpu) then
    status.map fun status => { status with conditions := status.conditions.map rewriteCondition }
  else status

def isTerminalFailureCondition (condition : SandboxCondition) : Bool :=
  !(["reconcilererror".toList, "dependenciesnotready".toList].contains
    (Text.toAsciiLowercase condition.reason.toList))

def phaseOfReady (condition : SandboxCondition) : SandboxPhase :=
  if eqIgnoreAsciiCase condition.status "true" then .ready
  else if eqIgnoreAsciiCase condition.status "false" then
    if isTerminalFailureCondition condition then .error else .provisioning
  else .provisioning

def derivePhase (status : Option SandboxStatus) (deleting : Bool) : SandboxPhase :=
  if deleting then .deleting
  else
    match status with
    | none => .unknown
    | some status =>
      match status.conditions.find? (·.type = "Ready") with
      | some condition => phaseOfReady condition
      | none => .provisioning

/-- What `handle_applied` takes from a Kubernetes object: its id, its name, its namespace or the client's, whether it
    is being deleted, and its status. -/
structure DynamicObject where
  id : String
  name : String
  namespaceName : String
  deletionTimestamp : Bool
  status : Option SandboxStatus

def placeholder (object : DynamicObject) : Sandbox where
  id := object.id
  name := object.name
  namespaceName := object.namespaceName
  phase := .unknown

def handleApplied (object : DynamicObject) (existing : Option Sandbox) : Sandbox :=
  let status := rewriteUserFacingConditions object.status (existing.bind (·.spec))
  { existing.getD (placeholder object) with status, phase := derivePhase status object.deletionTimestamp }

def reportedVersion (version : UInt32) (sandbox : Sandbox) : Sandbox :=
  { sandbox with currentPolicyVersion := version }

/-- The backfill of `handle_update_config`, which only a sandbox with a spec and without a policy gets. -/
def backfilled (policy : SandboxPolicy) (sandbox : Sandbox) : Option Sandbox :=
  match sandbox.spec with
  | none => none
  | some spec =>
    match spec.policy with
    | some _ => none
    | none => some { sandbox with spec := some { spec with policy := some policy } }

def markedDeleting (sandbox : Sandbox) : Sandbox := { sandbox with phase := .deleting }

inductive Operation where
  | applied (object : DynamicObject)
  | deleted
  | reportPolicyStatus (version : UInt32)
  | updateConfig (policy : SandboxPolicy)
  | deleteSandbox (inCluster : Bool)

/-- `handle_delete_sandbox` removes the record itself when the cluster had no such sandbox. -/
def sandboxProtocol : Protocol Operation Sandbox where
  removesUnread
    | .deleted => true
    | .applied _ | .reportPolicyStatus _ | .updateConfig _ | .deleteSandbox _ => false
  plan
    | .applied object => fun existing => some (handleApplied object existing)
    | .deleted => fun _ => none
    | .reportPolicyStatus version => fun existing => existing.map (reportedVersion version)
    | .updateConfig policy => fun existing => existing.bind (backfilled policy)
    | .deleteSandbox _ => fun existing => existing.map markedDeleting
  removesWritten
    | .deleteSandbox inCluster => !inCluster
    | .applied _ | .deleted | .reportPolicyStatus _ | .updateConfig _ => false

/-! What an operation owns, and what it may not do to the rest. -/

inductive Field where
  | policy | currentPolicyVersion | status | phase | rest

def Same (first second : Sandbox) : Field → Prop
  | .policy => first.spec.bind (·.policy) = second.spec.bind (·.policy)
  | .currentPolicyVersion => first.currentPolicyVersion = second.currentPolicyVersion
  | .status => first.status = second.status
  | .phase => first.phase = second.phase
  | .rest => first.id = second.id ∧ first.name = second.name ∧ first.namespaceName = second.namespaceName ∧
      first.spec.map (·.gpu) = second.spec.map (·.gpu) ∧ first.createdAtMs = second.createdAtMs

def Owns : Operation → Field → Prop
  | .updateConfig _, .policy => True
  | .reportPolicyStatus _, .currentPolicyVersion => True
  | .applied _, .status => True
  | .applied _, .phase => True
  | .deleteSandbox _, .phase => True
  | _, _ => False

abbrev SandboxChange := Change Operation Sandbox

/-- The values that the record has had. -/
def history (initial : Option Sandbox) (log : List SandboxChange) : List Sandbox :=
  (initial :: log.map (·.after)).reduceOption

/-- `handle_deleted` has removed the record. -/
def Removed (change : SandboxChange) : Prop := change.call = .deleted ∧ change.before.isSome

structure NoneUndone (initial : Option Sandbox) (log : List SandboxChange) : Prop where
  notSetBack : ∀ (position : Nat) (change : SandboxChange), log[position]? = some change →
    ∀ old new, change.before = some old → change.after = some new →
      ∀ field, ¬Owns change.call field → ¬Same new old field →
        ∀ earlier ∈ history initial (log.take position), ¬Same new earlier field
  notRecreated : ∀ (position : Nat) (change : SandboxChange), log[position]? = some change →
    change.before = none → change.after.isSome →
      ∀ (earlier : Nat) (removal : SandboxChange), earlier < position → log[earlier]? = some removal →
        Removed removal → earlier < change.began

/-- `handle_applied` finds the record absent, and it has not been removed since the call began. -/
def NotRemoved (operation : Operation) (existing : Option Sandbox) (missed : List SandboxChange) : Prop :=
  ∀ object, operation = .applied object → existing = none → ∀ change ∈ missed, ¬Removed change

def Orderly (state : State Operation Sandbox) (event : Event Operation) : Prop :=
  Undisturbed state event ∧ Informed NotRemoved state event

def run (initial : Option Sandbox) (events : List (Event Operation)) : State Operation Sandbox :=
  Machine.run (step sandboxProtocol) ⟨initial, [], []⟩ events

theorem backfilled_some {policy : SandboxPolicy} {sandbox new : Sandbox} (planned : backfilled policy sandbox = some new) :
    ∃ spec, sandbox.spec = some spec ∧ new = { sandbox with spec := some { spec with policy := some policy } } := by
  unfold backfilled at planned
  split at planned
  · cases planned
  · rename_i spec found
    split at planned
    · cases planned
    · exact ⟨spec, found, (Option.some.inj planned).symm⟩

/-- An operation works on the record it has read, and changes what it owns. -/
theorem plan_same {operation : Operation} {old new : Sandbox}
    (planned : sandboxProtocol.plan operation (some old) = some new) {field : Field} (unowned : ¬Owns operation field) :
    Same new old field := by
  cases operation with
  | applied object =>
    cases planned
    cases field with
    | status => exact absurd trivial unowned
    | phase => exact absurd trivial unowned
    | policy | currentPolicyVersion => rfl
    | rest => exact ⟨rfl, rfl, rfl, rfl, rfl⟩
  | deleted => cases planned
  | reportPolicyStatus version =>
    cases planned
    cases field with
    | currentPolicyVersion => exact absurd trivial unowned
    | policy | status | phase => rfl
    | rest => exact ⟨rfl, rfl, rfl, rfl, rfl⟩
  | updateConfig policy =>
    obtain ⟨spec, found, rfl⟩ := backfilled_some planned
    cases field with
    | policy => exact absurd trivial unowned
    | currentPolicyVersion | status | phase => rfl
    | rest => exact ⟨rfl, rfl, rfl, by rw [found]; rfl, rfl⟩
  | deleteSandbox inCluster =>
    cases planned
    cases field with
    | phase => exact absurd trivial unowned
    | policy | currentPolicyVersion | status => rfl
    | rest => exact ⟨rfl, rfl, rfl, rfl, rfl⟩

theorem plan_none {operation : Operation} {new : Sandbox} (planned : sandboxProtocol.plan operation none = some new) :
    ∃ object, operation = .applied object := by
  cases operation with
  | applied object => exact ⟨object, rfl⟩
  | deleted => cases planned
  | reportPolicyStatus version => cases planned
  | updateConfig policy => cases planned
  | deleteSandbox inCluster => cases planned

section Serial

variable {initial record : Option Sandbox} {log : List SandboxChange}

theorem same_of_serial (serial : Serial sandboxProtocol NotRemoved initial log record) :
    ∀ change ∈ log, ∀ old new, change.before = some old → change.after = some new →
      ∀ field, ¬Owns change.call field → Same new old field := by
  induction serial with
  | nil => simp
  | write prior planned informed ih =>
    intro change member old new before after field unowned
    rcases List.mem_append.mp member with earlier | last
    · exact ih change earlier old new before after field unowned
    · cases List.mem_singleton.mp last
      cases after
      exact plan_same (before ▸ planned) unowned
  | remove prior ih =>
    intro change member old new before after
    rcases List.mem_append.mp member with earlier | last
    · exact ih change earlier old new before after
    · cases List.mem_singleton.mp last
      cases after

/-- The last change of a history, or one of those before it. -/
theorem getElem?_snoc {change last : SandboxChange} {position : Nat}
    (found : (log ++ [last])[position]? = some change) :
    log[position]? = some change ∨ position = log.length ∧ change = last := by
  rw [List.getElem?_append] at found
  split at found
  · exact .inl found
  · rw [List.getElem?_singleton] at found
    split at found
    · exact .inr ⟨by omega, (Option.some.inj found).symm⟩
    · cases found

theorem getElem?_before {change removal last : SandboxChange} {earlier position : Nat}
    (found : (log ++ [last])[position]? = some change) (before : earlier < position)
    (removes : (log ++ [last])[earlier]? = some removal) : log[earlier]? = some removal := by
  have bound := (List.getElem?_eq_some_iff.mp found).1
  rw [List.length_append, List.length_singleton] at bound
  rwa [List.getElem?_append_left (by omega)] at removes

theorem notRecreated_of_serial (serial : Serial sandboxProtocol NotRemoved initial log record) (position : Nat)
    (change : SandboxChange) (found : log[position]? = some change) (absent : change.before = none)
    (created : change.after.isSome) (earlier : Nat) (removal : SandboxChange) (before : earlier < position)
    (removes : log[earlier]? = some removal) (removed : Removed removal) : earlier < change.began := by
  induction serial with
  | nil => simp at found
  | @write log existing _ began call _ prior planned informed ih =>
    have old := getElem?_before found before removes
    rcases getElem?_snoc found with found | ⟨-, rfl⟩
    · exact ih found old
    · by_contra late
      obtain rfl : existing = none := absent
      obtain ⟨object, rfl⟩ := plan_none planned
      have missed : removal ∈ log.drop began := by
        apply List.mem_of_getElem?
        rw [List.getElem?_drop, Nat.add_sub_cancel' (Nat.le_of_not_lt late)]
        exact old
      exact informed object rfl rfl removal missed removed
  | remove prior ih =>
    have old := getElem?_before found before removes
    rcases getElem?_snoc found with found | ⟨-, rfl⟩
    · exact ih found old
    · cases created

theorem noneUndone_of_serial (serial : Serial sandboxProtocol NotRemoved initial log record) :
    NoneUndone initial log where
  notSetBack _ change found old new before after field unowned changed :=
    absurd (same_of_serial serial change (List.mem_of_getElem? found) old new before after field unowned) changed
  notRecreated := notRecreated_of_serial serial

end Serial

/-- Where every write finds the record as its operation has read it, and no placeholder is made for a sandbox that was
    deleted since the operation began, no operation undoes another. -/
theorem none_undone (initial : Option Sandbox) (events : List (Event Operation))
    (orderly : Machine.Along (step sandboxProtocol) Orderly ⟨initial, [], []⟩ events) :
    NoneUndone initial (run initial events).log :=
  noneUndone_of_serial (sound_run orderly).serial

def web : Sandbox where
  id := "s-1"
  name := "web"
  namespaceName := "default"
  spec := some {}
  phase := .provisioning

def readyObject : DynamicObject where
  id := "s-1"
  name := "web"
  namespaceName := "default"
  deletionTimestamp := false
  status := some { conditions := [{ type := "Ready", status := "True" }] }

theorem orderly_of_present {initial : Option Sandbox} {events : List (Event Operation)}
    (along : Machine.Along (step sandboxProtocol)
      (fun state event => Undisturbed state event ∧ state.record.isSome) ⟨initial, [], []⟩ events) :
    Machine.Along (step sandboxProtocol) Orderly ⟨initial, [], []⟩ events := by
  apply along.imp
  intro state event condition
  refine ⟨condition.1, ?_⟩
  cases event with
  | start call => trivial
  | advance caller =>
    intro call began found object applied absent
    have present := condition.2
    rw [absent] at present
    cases present
  | fail caller => trivial

def inTurn : List (Event Operation) :=
  [.start (.applied readyObject), .advance 0, .advance 0, .start (.reportPolicyStatus 7), .advance 1, .advance 1,
    .start .deleted, .advance 2]

theorem inTurn_noneUndone :
    Machine.Along (step sandboxProtocol) Orderly ⟨some web, [], []⟩ inTurn ∧
      NoneUndone (some web) (run (some web) inTurn).log := by
  have orderly : Machine.Along (step sandboxProtocol) Orderly ⟨some web, [], []⟩ inTurn :=
    orderly_of_present (by decide +kernel)
  exact ⟨orderly, none_undone (some web) inTurn orderly⟩

/-- The watcher has read the record when the sandbox reports version 7, and writes it back afterwards. -/
def straddling : List (Event Operation) :=
  [.start (.applied readyObject), .advance 0, .start (.reportPolicyStatus 7), .advance 1, .advance 1, .advance 0]

theorem straddling_setBack : ¬∀ (initial : Option Sandbox) (events : List (Event Operation)),
    NoneUndone initial (run initial events).log := by
  intro claim
  have found : (run (some web) straddling).log[1]? = some ⟨0, .applied readyObject, 0, 0, some (reportedVersion 7 web),
      some (handleApplied readyObject (some web))⟩ := rfl
  have changed : ¬Same (handleApplied readyObject (some web)) (reportedVersion 7 web) .currentPolicyVersion := by
    intro same
    exact absurd (show (0 : UInt32) = 7 from same) (by decide)
  refine (claim (some web) straddling).notSetBack 1 _ found _ _ rfl rfl .currentPolicyVersion id changed web ?_ rfl
  exact List.mem_cons_self

end OpenShell.Server.SandboxRecord
