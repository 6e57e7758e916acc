import OpenShell.Lib.Maps
import OpenShell.Server.Buses
import OpenShell.Server.Objects
import OpenShell.Server.Providers
import OpenShell.Server.SandboxRecord

namespace OpenShell.Server.Gateway

open OpenShell.Policy
open SandboxRecord (SandboxPhase SandboxStatus)

/-! What the handlers that create and delete sandboxes share: the stored objects, the index and the buses. -/

/-- A `google.protobuf.Struct` is known by its encoding. -/
structure SandboxTemplate where
  image : String := ""
  runtimeClassName : String := ""
  agentSocket : String := ""
  labels : StringMap String := ∅
  annotations : StringMap String := ∅
  environment : StringMap String := ∅
  resources : Option (List UInt8) := none
  volumeClaimTemplates : Option (List UInt8) := none

structure SandboxSpec where
  logLevel : String := ""
  environment : StringMap String := ∅
  template : Option SandboxTemplate := none
  policy : Option SandboxPolicy := none
  providers : List String := []
  gpu : Bool := false

structure Sandbox where
  id : String
  name : String
  namespaceName : String := ""
  spec : Option SandboxSpec := none
  status : Option SandboxStatus := none
  phase : SandboxPhase := .unspecified
  createdAtMs : Int := 0
  currentPolicyVersion : UInt32 := 0

structure SshSession where
  id : String
  sandboxId : String
  name : String
  revoked : Bool := false
  expiresAtMs : Int := 0

/-- The messages of the `objects` table that the handlers decode, and those of the other types. -/
inductive Object where
  | sandbox (sandbox : Sandbox)
  | sshSession (session : SshSession)
  | provider (provider : Provider)
  | other (objectType id name : String) (foreign : objectType ∉ ["sandbox", "ssh_session", "provider"])

instance : Stored Object where
  objectType
    | .sandbox _ => "sandbox"
    | .sshSession _ => "ssh_session"
    | .provider _ => "provider"
    | .other objectType _ _ _ => objectType
  objectId
    | .sandbox sandbox => sandbox.id
    | .sshSession session => session.id
    | .provider provider => provider.id
    | .other _ id _ _ => id
  objectName
    | .sandbox sandbox => sandbox.name
    | .sshSession session => session.name
    | .provider provider => provider.name
    | .other _ _ name _ => name

abbrev StoredObjects : Type := Objects Object

/-- `Sandbox::decode`. -/
def Object.sandbox? : Object → Option Sandbox
  | .sandbox held => some held
  | .sshSession _ | .provider _ | .other _ _ _ _ => none

/-- `SshSession::decode`. -/
def Object.session? : Object → Option SshSession
  | .sshSession held => some held
  | .sandbox _ | .provider _ | .other _ _ _ _ => none

/-- `Provider::decode`. -/
def Object.provider? : Object → Option Provider
  | .provider held => some held
  | .sandbox _ | .sshSession _ | .other _ _ _ _ => none

def getSandboxByName (objects : StoredObjects) (name : String) : Option Sandbox :=
  (objects.getByName "sandbox" name).bind fun record => record.message.sandbox?

structure SandboxIndex where
  sandboxNameToId : StringMap String := ∅
  agentPodToId : StringMap String := ∅

namespace SandboxIndex

def updateFromSandbox (index : SandboxIndex) (sandbox : Sandbox) : SandboxIndex where
  sandboxNameToId :=
    if sandbox.name = "" then index.sandboxNameToId else index.sandboxNameToId.insert sandbox.name sandbox.id
  agentPodToId :=
    match sandbox.status with
    | none => index.agentPodToId
    | some status =>
      if status.agentPod = "" then index.agentPodToId else index.agentPodToId.insert status.agentPod sandbox.id

def removeSandbox (index : SandboxIndex) (sandboxId : String) : SandboxIndex where
  sandboxNameToId := Maps.retain (fun _ id => id ≠ sandboxId) index.sandboxNameToId
  agentPodToId := Maps.retain (fun _ id => id ≠ sandboxId) index.agentPodToId

end SandboxIndex

structure ServerState where
  objects : StoredObjects := Objects.empty
  index : SandboxIndex := {}
  buses : Buses := {}

/-- How the gateway's tracing is set up, and the clock of the call. -/
structure Tracing where
  enabled : TracingEvent → Bool
  nowMs : Int

def ServerState.trace (state : ServerState) (tracing : Tracing) (event : TracingEvent) : ServerState :=
  { state with buses := state.buses.trace tracing.enabled tracing.nowMs event }

@[simp] theorem trace_objects (state : ServerState) (tracing : Tracing) (event : TracingEvent) :
    (state.trace tracing event).objects = state.objects := rfl

@[simp] theorem trace_index (state : ServerState) (tracing : Tracing) (event : TracingEvent) :
    (state.trace tracing event).index = state.index := rfl

variable {objects : StoredObjects} {record : ObjectRecord Object}

theorem session_record {session : SshSession} (decoded : record.message.session? = some session) :
    record.objectType = "ssh_session" ∧ record.id = session.id := by
  obtain ⟨name, message, createdAtMs⟩ := record
  cases message with
  | sshSession held =>
    cases decoded
    exact ⟨rfl, rfl⟩
  | sandbox | provider | other => cases decoded

theorem sandbox_of_type (sameType : record.objectType = "sandbox") :
    ∃ sandbox, record.message = .sandbox sandbox := by
  obtain ⟨name, message, createdAtMs⟩ := record
  cases message with
  | sandbox held => exact ⟨held, rfl⟩
  | sshSession | provider =>
    simp [ObjectRecord.objectType, Stored.objectType] at sameType
  | other objectType id name foreign =>
    have same : objectType = "sandbox" := sameType
    subst same
    exact absurd (List.mem_cons_self ..) foreign

theorem getSandboxByName_some {name : String} {sandbox : Sandbox}
    (found : getSandboxByName objects name = some sandbox) :
    ∃ record ∈ objects, record.message = .sandbox sandbox ∧ record.name = name := by
  obtain ⟨record, held, decoded⟩ := Option.bind_eq_some_iff.mp found
  obtain ⟨member, sameType, sameName⟩ := Objects.getByName_some.mp held
  obtain ⟨stored, same⟩ := sandbox_of_type sameType
  rw [same] at decoded
  cases decoded
  exact ⟨record, member, same, sameName⟩

end OpenShell.Server.Gateway
