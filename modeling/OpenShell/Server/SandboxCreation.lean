import OpenShell.Server.SandboxDeletion
import OpenShell.Server.UpdateConfig

namespace OpenShell.Server.Gateway

open OpenShell.Policy

/-! `handle_create_sandbox`: the index and the store are written before the cluster has answered. -/

def maxProviders : Nat := 32

def maxLogLevelLen : Nat := 32

def maxEnvironmentEntries : Nat := 128

def maxTemplateStringLen : Nat := 1024

def maxTemplateMapEntries : Nat := 128

def maxTemplateStructSize : Nat := 65536

def maxPolicySize : Nat := 262144

/-- A size over its limit: `"… (size > limit)"`. -/
def checkSize (what : String) (size limit : Nat) : Except Status Unit :=
  if limit < size then .error (exceeds what size limit) else .ok ()

def checkString (field value : String) : Except Status Unit :=
  checkSize (field ++ " exceeds maximum length") value.utf8ByteSize maxTemplateStringLen

def checkMap (field : String) (map : StringMap String) : Except Status Unit :=
  validateStringMap map maxTemplateMapEntries maxMapKeyLen maxMapValueLen field

def checkStruct (field : String) : Option (List UInt8) → Except Status Unit
  | none => .ok ()
  | some encoding => checkSize (field ++ " serialized size exceeds maximum") encoding.length maxTemplateStructSize

def validateSandboxTemplate (template : SandboxTemplate) : Except Status Unit := do
  checkString "template.image" template.image
  checkString "template.runtime_class_name" template.runtimeClassName
  checkString "template.agent_socket" template.agentSocket
  checkMap "template.labels" template.labels
  checkMap "template.annotations" template.annotations
  checkMap "template.environment" template.environment
  checkStruct "template.resources" template.resources
  checkStruct "template.volume_claim_templates" template.volumeClaimTemplates

def validateSandboxSpec (policyLen : SandboxPolicy → Nat) (name : String) (spec : SandboxSpec) : Except Status Unit := do
  checkSize "name exceeds maximum length" name.utf8ByteSize maxNameLen
  checkSize "providers list exceeds maximum" spec.providers.length maxProviders
  checkSize "log_level exceeds maximum length" spec.logLevel.utf8ByteSize maxLogLevelLen
  validateStringMap spec.environment maxEnvironmentEntries maxMapKeyLen maxMapValueLen "spec.environment"
  spec.template.forM validateSandboxTemplate
  spec.policy.forM fun policy =>
    checkSize "policy serialized size exceeds maximum" (policyLen policy) maxPolicySize

structure CreateSandboxRequest where
  name : String := ""
  spec : Option SandboxSpec := none

/-- The answer of the cluster to the creation of a sandbox. -/
inductive KubeCreate where
  | created
  | conflict (error : String)
  | failed (error : String)
  | timedOut (error : String)

/-- What a call finds outside: its configuration, the id and the name that it draws, the statements that fail, and
    the answers of the cluster. `policyLen` is prost's `encoded_len`. -/
structure CreateOutside where
  policyLen : SandboxPolicy → Nat
  defaultImage : String := ""
  sandboxNamespace : String := "openshell"
  id : String
  drawnName : String
  providerError : String → Option String := fun _ => none
  gpuSupport : Except Status Unit := .ok ()
  fetchError : Option String := none
  putError : Option String := none
  cluster : KubeCreate := .created
  deleteError : Option String := none

section Create

variable (tracing : Tracing) (outside : CreateOutside)

def getProviderByName (objects : StoredObjects) (name : String) : Option Provider :=
  (objects.getByName "provider" name).bind fun record => record.message.provider?

def checkProvider (objects : StoredObjects) (name : String) : Except Status Unit := do
  let provider ← mapInternal "fetch provider failed"
    (attempt (outside.providerError name) (.ok (getProviderByName objects name)))
  if provider.isNone then throw ⟨.failedPrecondition, "provider '" ++ name ++ "' not found"⟩

/-- The template always carries the resolved image. -/
def resolveImage (spec : SandboxSpec) : SandboxSpec :=
  let template := spec.template.getD {}
  let resolved := if template.image = "" then { template with image := outside.defaultImage } else template
  { spec with template := some resolved }

/-- The checks that come before any write, and the spec that is written. -/
def prepareSpec (request : CreateSandboxRequest) (objects : StoredObjects) : Except Status SandboxSpec := do
  match request.spec with
  | none => throw (invalidArgument "spec is required")
  | some spec =>
    validateSandboxSpec outside.policyLen request.name spec
    spec.providers.forM (checkProvider outside objects)
    let spec := resolveImage outside spec
    if spec.gpu then outside.gpuSupport
    match spec.policy with
    | none => return spec
    | some policy =>
      let policy := ensureSandboxProcessIdentity policy
      validatePolicySafety policy
      return { spec with policy := some policy }

def sandboxName (request : CreateSandboxRequest) : String :=
  if request.name = "" then outside.drawnName else request.name

def newSandbox (request : CreateSandboxRequest) (spec : SandboxSpec) : Sandbox where
  id := outside.id
  name := sandboxName outside request
  namespaceName := outside.sandboxNamespace
  spec := some spec
  phase := .provisioning

def sandboxFields (sandbox : Sandbox) : List (String × String) :=
  [("sandbox_id", sandbox.id), ("sandbox_name", sandbox.name)]

/-- `SandboxClient::create`. -/
def kubeCreate (sandbox : Sandbox) (state : ServerState) : ServerState :=
  let state := state.trace tracing (clusterEvent 205 "INFO" "Creating sandbox in Kubernetes"
    (sandboxFields sandbox ++ [("namespace", outside.sandboxNamespace)]))
  match outside.cluster with
  | .created => state.trace tracing
      (clusterEvent 239 "INFO" "Sandbox created in Kubernetes successfully" (sandboxFields sandbox))
  | .conflict error | .failed error => state.trace tracing (clusterEvent 247 "WARN"
      "Failed to create sandbox in Kubernetes" (sandboxFields sandbox ++ [("error", error)]))
  | .timedOut _ => state.trace tracing (clusterEvent 256 "WARN"
      "Timed out creating sandbox in Kubernetes" (sandboxFields sandbox ++ [("timeout_secs", "30")]))

/-- What both failures of the cluster undo. -/
def undoCreate (id : String) (state : ServerState) : ServerState where
  objects :=
    match outside.deleteError with
    | some _ => state.objects
    | none => (state.objects.delete "sandbox" id).2
  index := state.index.removeSandbox id
  buses := state.buses

def answerCreate (sandbox : Sandbox) (state : ServerState) : Except Status Sandbox × ServerState :=
  match outside.cluster with
  | .created => (.ok sandbox, { state with buses := state.buses.notify sandbox.id }.trace tracing
      (handlerEvent 164 "INFO" "CreateSandbox request completed successfully" (sandboxFields sandbox)))
  | .conflict _ => (.error ⟨.alreadyExists, "sandbox already exists"⟩, (undoCreate outside sandbox.id state).trace tracing
      (handlerEvent 140 "WARN" "Sandbox already exists in Kubernetes" (sandboxFields sandbox)))
  | .failed error | .timedOut error => (.error ⟨.internal, "create sandbox in kubernetes failed: " ++ error⟩,
      (undoCreate outside sandbox.id state).trace tracing (handlerEvent 150 "WARN" "CreateSandbox request failed"
        (sandboxFields sandbox ++ [("error", error)])))

def createSandbox (sandbox : Sandbox) (state : ServerState) : Except Status Sandbox × ServerState :=
  match mapInternal "fetch sandbox failed"
    (attempt outside.fetchError (.ok (getSandboxByName state.objects sandbox.name))) with
  | .error status => (.error status, state)
  | .ok (some _) => (.error ⟨.alreadyExists, "sandbox '" ++ sandbox.name ++ "' already exists"⟩, state)
  | .ok none =>
    let state := { state with index := state.index.updateFromSandbox sandbox }
    match mapInternal "persist sandbox failed"
      (attempt outside.putError (state.objects.put tracing.nowMs (.sandbox sandbox))) with
    | .error status => (.error status, state)
    | .ok objects => answerCreate tracing outside sandbox (kubeCreate tracing outside sandbox { state with objects })

def handleCreateSandbox (request : CreateSandboxRequest) (state : ServerState) :
    Except Status Sandbox × ServerState :=
  match prepareSpec outside request state.objects with
  | .error status => (.error status, state)
  | .ok spec => createSandbox tracing outside (newSandbox outside request spec) state

end Create

/-! What a call that fails leaves behind. -/

/-- The id is new to the store and to the index. -/
structure Fresh (state : ServerState) (id : String) : Prop where
  objects : ∀ record ∈ state.objects, record.id ≠ id
  names : ∀ name, state.index.sandboxNameToId.lookup name ≠ some id
  pods : ∀ pod, state.index.agentPodToId.lookup pod ≠ some id

/-- The same objects are stored, and the index answers the same. -/
structure Unchanged (before after : ServerState) : Prop where
  objects : ∀ record, record ∈ after.objects ↔ record ∈ before.objects
  names : ∀ name, after.index.sandboxNameToId.lookup name = before.index.sandboxNameToId.lookup name
  pods : ∀ pod, after.index.agentPodToId.lookup pod = before.index.agentPodToId.lookup pod

theorem Unchanged.refl (state : ServerState) : Unchanged state state :=
  ⟨fun _ => Iff.rfl, fun _ => rfl, fun _ => rfl⟩

variable {tracing : Tracing} {outside : CreateOutside} {request : CreateSandboxRequest} {state after : ServerState}
  {sandbox : Sandbox} {status : Status}

namespace SandboxIndex

variable {index : SandboxIndex} {key : String}

theorem updated_name :
    (index.updateFromSandbox sandbox).sandboxNameToId.lookup key =
      if sandbox.name ≠ "" ∧ key = sandbox.name then some sandbox.id else index.sandboxNameToId.lookup key := by
  unfold updateFromSandbox
  by_cases unnamed : sandbox.name = ""
  · simp [unnamed]
  · by_cases same : key = sandbox.name
    · subst same
      simp [unnamed]
    · simp [unnamed, same]

theorem updated_pod (unscheduled : sandbox.status = none) :
    (index.updateFromSandbox sandbox).agentPodToId = index.agentPodToId := by
  unfold updateFromSandbox
  rw [unscheduled]

theorem filter_fresh {found : Option String} {id : String} (fresh : found ≠ some id) :
    found.filter (fun held => held ≠ id) = found := by
  cases found with
  | none => rfl
  | some held =>
    have differs : held ≠ id := fun same => fresh (congrArg some same)
    simp [Option.filter, differs]

/-- The entries of a new id are gone, and the entry that one of them has replaced does not come back. -/
theorem removed_name (fresh : ∀ name, index.sandboxNameToId.lookup name ≠ some sandbox.id) :
    ((index.updateFromSandbox sandbox).removeSandbox sandbox.id).sandboxNameToId.lookup key =
      if sandbox.name ≠ "" ∧ key = sandbox.name then none else index.sandboxNameToId.lookup key := by
  show (Maps.retain _ (index.updateFromSandbox sandbox).sandboxNameToId).lookup key = _
  rw [Maps.lookup_retain, updated_name]
  split
  · simp
  · exact filter_fresh (fresh key)

theorem removed_pod (unscheduled : sandbox.status = none)
    (fresh : ∀ pod, index.agentPodToId.lookup pod ≠ some sandbox.id) :
    ((index.updateFromSandbox sandbox).removeSandbox sandbox.id).agentPodToId.lookup key =
      index.agentPodToId.lookup key := by
  show (Maps.retain _ (index.updateFromSandbox sandbox).agentPodToId).lookup key = _
  rw [Maps.lookup_retain, updated_pod unscheduled]
  exact filter_fresh (fresh key)

end SandboxIndex

theorem getSandboxByName_none {objects : StoredObjects} {name : String} :
    getSandboxByName objects name = none ↔ ∀ old ∈ objects, old.key ≠ ("sandbox", name) := by
  rw [← Objects.getByName_none, getSandboxByName]
  constructor
  · intro missing
    by_contra present
    obtain ⟨record, found⟩ := Option.ne_none_iff_exists'.mp present
    obtain ⟨stored, same⟩ := sandbox_of_type (Objects.getByName_some.mp found).2.1
    rw [found, Option.bind_some, same] at missing
    cases missing
  · intro absent
    rw [absent]
    rfl

theorem put_fresh (nowMs : Int) (sandbox : Sandbox) (fresh : ∀ record ∈ state.objects, record.id ≠ sandbox.id)
    (absent : getSandboxByName state.objects sandbox.name = none) :
    ∃ objects, state.objects.put nowMs (.sandbox sandbox) = .ok objects ∧
      ∀ record, record ∈ (objects.delete "sandbox" sandbox.id).2 ↔ record ∈ state.objects := by
  cases put : state.objects.put nowMs (.sandbox sandbox) with
  | error text =>
    obtain ⟨old, member, same⟩ := Objects.put_error put
    exact absurd same (getSandboxByName_none.mp absent old member)
  | ok objects =>
    obtain ⟨rows, -⟩ := Objects.put_new fresh put
    refine ⟨objects, rfl, fun record => ?_⟩
    rw [Objects.mem_delete, Objects.mem_rows, rows, List.mem_append, List.mem_singleton]
    constructor
    · intro left
      obtain ⟨stored, kept⟩ := left
      rcases stored with old | rfl
      · exact old
      · exact absurd ⟨rfl, rfl⟩ kept
    · intro member
      exact ⟨.inl member, fun same => fresh record member same.2⟩

/-- The call comes to the update of the index. -/
structure ReachesIndex (outside : CreateOutside) (request : CreateSandboxRequest) (state : ServerState) : Prop where
  prepared : ∃ spec, prepareSpec outside request state.objects = .ok spec
  fetched : outside.fetchError = none
  absent : getSandboxByName state.objects (sandboxName outside request) = none

theorem unchanged_unreached (unreached : ¬ReachesIndex outside request state)
    (failed : handleCreateSandbox tracing outside request state = (.error status, after)) : after = state := by
  unfold handleCreateSandbox at failed
  split at failed
  · exact (congrArg Prod.snd failed).symm
  · rename_i spec prepared
    unfold createSandbox at failed
    split at failed
    · exact (congrArg Prod.snd failed).symm
    · exact (congrArg Prod.snd failed).symm
    · rename_i fetched
      obtain ⟨readable, absent⟩ := attempt_ok fetched
      exact absurd ⟨⟨spec, prepared⟩, readable, Except.ok.inj absent⟩ unreached

theorem kubeCreate_frame : (kubeCreate tracing outside sandbox state).objects = state.objects ∧
    (kubeCreate tracing outside sandbox state).index = state.index := by
  unfold kubeCreate
  cases outside.cluster <;> exact ⟨rfl, rfl⟩

theorem answerCreate_failed (cleaned : outside.deleteError = none)
    (failed : answerCreate tracing outside sandbox state = (.error status, after)) :
    after.objects = (state.objects.delete "sandbox" sandbox.id).2 ∧
      after.index = state.index.removeSandbox sandbox.id := by
  unfold answerCreate at failed
  split at failed
  · cases failed
  all_goals
    cases failed
    refine ⟨?_, rfl⟩
    rw [trace_objects, undoCreate, cleaned]

/-- A failed write leaves the updated index; a failure of the cluster takes the new id out of store and index. -/
theorem createSandbox_failed (reached : ReachesIndex outside request state) (fresh : Fresh state outside.id)
    (cleaned : outside.deleteError = none)
    (failed : handleCreateSandbox tracing outside request state = (.error status, after)) :
    ∃ sandbox, sandbox.name = sandboxName outside request ∧ sandbox.id = outside.id ∧ sandbox.status = none ∧
      (∀ record, record ∈ after.objects ↔ record ∈ state.objects) ∧
      after.index = if outside.putError = none then
        (state.index.updateFromSandbox sandbox).removeSandbox sandbox.id else state.index.updateFromSandbox sandbox := by
  obtain ⟨⟨spec, prepared⟩, readable, absent⟩ := reached
  refine ⟨newSandbox outside request spec, rfl, rfl, rfl, ?_⟩
  unfold handleCreateSandbox createSandbox at failed
  have sameName : (newSandbox outside request spec).name = sandboxName outside request := rfl
  simp only [prepared, readable, sameName, absent, attempt, mapInternal, Except.mapError] at failed
  cases writable : outside.putError with
  | some text =>
    simp only [writable] at failed
    cases failed
    exact ⟨fun _ => Iff.rfl, rfl⟩
  | none =>
    obtain ⟨objects, put, kept⟩ := put_fresh tracing.nowMs (newSandbox outside request spec) fresh.objects absent
    simp only [writable, put] at failed
    obtain ⟨undone, index⟩ := answerCreate_failed cleaned failed
    rw [kubeCreate_frame.1] at undone
    rw [kubeCreate_frame.2] at index
    rw [undone, if_pos rfl]
    exact ⟨kept, index⟩

/-- A failed creation leaves no trace, unless its write of the record fails behind the update of the index, or the
    index had an entry for the name. -/
theorem failedCreate_unchanged_iff (fresh : Fresh state outside.id) (cleaned : outside.deleteError = none)
    (failed : handleCreateSandbox tracing outside request state = (.error status, after)) :
    Unchanged state after ↔ (ReachesIndex outside request state → sandboxName outside request ≠ "" →
      outside.putError = none ∧ state.index.sandboxNameToId.lookup (sandboxName outside request) = none) := by
  by_cases reached : ReachesIndex outside request state
  · obtain ⟨sandbox, sameName, sameId, unscheduled, objects, index⟩ := createSandbox_failed reached fresh cleaned failed
    rw [← sameName]
    rw [← sameId] at fresh
    constructor
    · intro unchanged _ named
      have entry := unchanged.names sandbox.name
      cases writable : outside.putError with
      | some text =>
        rw [writable, if_neg (by simp)] at index
        rw [index, SandboxIndex.updated_name, if_pos ⟨named, rfl⟩] at entry
        exact absurd entry.symm (fresh.names sandbox.name)
      | none =>
        rw [writable, if_pos rfl] at index
        rw [index, SandboxIndex.removed_name fresh.names, if_pos ⟨named, rfl⟩] at entry
        exact ⟨rfl, entry.symm⟩
    · intro condition
      refine ⟨objects, fun key => ?_, fun pod => ?_⟩
      · rw [index]
        split
        · rw [SandboxIndex.removed_name fresh.names]
          split
          · rename_i own
            rw [own.2, (condition reached own.1).2]
          · rfl
        · rename_i unwritable
          rw [SandboxIndex.updated_name]
          split
          · rename_i own
            exact absurd (condition reached own.1).1 unwritable
          · rfl
      · rw [index]
        split
        · exact SandboxIndex.removed_pod unscheduled fresh.pods
        · rw [SandboxIndex.updated_pod unscheduled]
  · rw [unchanged_unreached reached failed]
    exact iff_of_true (Unchanged.refl state) fun reaches => absurd reaches reached

def createBeta (putError : Option String) (cluster : KubeCreate) : CreateOutside :=
  { policyLen := fun _ => 0, id := "sb", drawnName := "calm-otter", putError, cluster }

def requestBeta : CreateSandboxRequest := { name := "beta", spec := some {} }

theorem fresh_empty (id : String) : Fresh {} id where
  objects := fun record member => absurd member List.not_mem_nil
  names := by simp
  pods := by simp

theorem conflict_unchanged :
    Unchanged {} (handleCreateSandbox infoLevel (createBeta none (.conflict "exists")) requestBeta {}).2 := by
  have answered : (handleCreateSandbox infoLevel (createBeta none (.conflict "exists")) requestBeta {}).1 =
      .error ⟨.alreadyExists, "sandbox already exists"⟩ := rfl
  exact (failedCreate_unchanged_iff (fresh_empty "sb") rfl (Prod.ext answered rfl)).mpr fun _ _ => ⟨rfl, rfl⟩

/-- After a failed write the index names a sandbox that was never stored. -/
theorem failedWrite_changes : ¬∀ (tracing : Tracing) (outside : CreateOutside) (request : CreateSandboxRequest)
    (state after : ServerState) (status : Status), Fresh state outside.id → outside.deleteError = none →
    handleCreateSandbox tracing outside request state = (.error status, after) → Unchanged state after := by
  intro unchanged
  have answered : (handleCreateSandbox infoLevel (createBeta (some "disk full") .created) requestBeta {}).1 =
      .error ⟨.internal, "persist sandbox failed: disk full"⟩ := rfl
  have same := (unchanged _ _ _ {} _ _ (fresh_empty "sb") rfl (Prod.ext answered rfl)).names "beta"
  cases same

end OpenShell.Server.Gateway
