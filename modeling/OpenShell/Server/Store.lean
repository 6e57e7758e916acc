import OpenShell.Lib.Program
import OpenShell.Lib.Table
import OpenShell.Policy.Model

namespace OpenShell.Server

open OpenShell.Policy Relational

inductive PolicyStatus where
  | pending | loaded | failed | superseded
deriving DecidableEq

inductive ChunkStatus where
  | pending | approved | rejected
deriving DecidableEq

def ChunkStatus.text : ChunkStatus → String
  | .pending => "pending"
  | .approved => "approved"
  | .rejected => "rejected"

structure PolicyRecord (Blob : Type) where
  sandboxId : String
  version : Nat
  policyPayload : Blob
  policyHash : String
  status : PolicyStatus
  loadError : Option String := none
  loadedAtMs : Option Int := none

/-- The columns of a draft chunk that a handler reads or writes. `host`, `port` and `binary` are the
    denormalised first endpoint and first binary of the rule as it was submitted. -/
structure DraftChunkRecord (Blob : Type) where
  id : String
  sandboxId : String
  status : ChunkStatus
  ruleName : String
  proposedRule : Blob
  securityNotes : String := ""
  createdAtMs : Int := 0
  decidedAtMs : Option Int := none
  host : String
  port : Int32
  binary : String

structure SandboxSpec where
  policy : Option SandboxPolicy := none

structure Sandbox where
  id : String
  name : String
  spec : Option SandboxSpec := none
  currentPolicyVersion : UInt32 := 0

/-- A row of `objects` that holds a sandbox: its name column beside the message. The id column is
    always the id of the message. -/
structure SandboxRow where
  name : String
  message : Sandbox

def SandboxRow.id (row : SandboxRow) : String := row.message.id

inductive StoredSettingValue where
  | string (value : String)
  | bool (value : Bool)
  | int (value : Int)
  | bytes (hex : String)
deriving DecidableEq

structure StoredSettings where
  revision : UInt64 := 0
  settings : StringMap StoredSettingValue := ∅

inductive SettingsScope where
  | global
  | sandbox (sandboxId : String)
deriving DecidableEq

def SettingsScope.sameType : SettingsScope → SettingsScope → Bool
  | .global, .global => true
  | .sandbox _, .sandbox _ => true
  | _, _ => false

structure SettingsRow where
  scope : SettingsScope
  name : String
  payload : StoredSettings

def PolicyRecord.key {Blob : Type} (record : PolicyRecord Blob) : String × Nat :=
  (record.sandboxId, record.version)

/-- The gateway's database. The policy table carries `UNIQUE (sandbox_id, version)`. -/
structure Store (Blob : Type) where
  sandboxes : Table SandboxRow.id := Table.empty
  settings : Table SettingsRow.scope := Table.empty
  policies : Table (@PolicyRecord.key Blob) := Table.empty
  chunks : Table (@DraftChunkRecord.id Blob) := Table.empty
  nowMs : Int := 0

variable {Blob : Type}

inductive StoreOp (Blob : Type) where
  | getSettings (scope : SettingsScope)
  | putSettings (scope : SettingsScope) (name : String) (payload : StoredSettings)
  | getSandboxByName (name : String)
  | getSandbox (id : String)
  | putSandbox (message : Sandbox)
  | getLatestPolicy (sandboxId : String)
  | putPolicyRevision (sandboxId : String) (version : Nat) (payload : Blob) (hash : String)
  | updatePolicyStatus (sandboxId : String) (version : Nat) (status : PolicyStatus)
      (loadError : Option String) (loadedAtMs : Option Int)
  | supersedeOlderPolicies (sandboxId : String) (beforeVersion : Nat)
  | getDraftChunk (id : String)
  | listDraftChunks (sandboxId : String) (status : Option ChunkStatus)
  | updateDraftChunkStatus (id : String) (status : ChunkStatus) (decidedAtMs : Option Int)
  | updateDraftChunkRule (id : String) (proposedRule : Blob)
  | deleteDraftChunks (sandboxId : String) (status : ChunkStatus)
  | currentTimeMs

/-- A failed statement answers with the error's text, which the callers inspect. -/
def StoreOp.Answer : StoreOp Blob → Type
  | .getSettings _ => Except String (Option StoredSettings)
  | .putSettings .. => Except String Unit
  | .getSandboxByName _ => Except String (Option Sandbox)
  | .getSandbox _ => Except String (Option Sandbox)
  | .putSandbox _ => Except String Unit
  | .getLatestPolicy _ => Except String (Option (PolicyRecord Blob))
  | .putPolicyRevision .. => Except String Unit
  | .updatePolicyStatus .. => Except String Bool
  | .supersedeOlderPolicies .. => Except String Nat
  | .getDraftChunk _ => Except String (Option (DraftChunkRecord Blob))
  | .listDraftChunks .. => Except String (List (DraftChunkRecord Blob))
  | .updateDraftChunkStatus .. => Except String Bool
  | .updateDraftChunkRule .. => Except String Bool
  | .deleteDraftChunks .. => Except String Nat
  | .currentTimeMs => Except String Int

abbrev storeInterface (Blob : Type) : Effects.Interface := ⟨StoreOp Blob, StoreOp.Answer⟩

def SandboxRow.withMessage (row : SandboxRow) (message : Sandbox) : SandboxRow :=
  { row with message := message }

def SettingsRow.withPayload (row : SettingsRow) (payload : StoredSettings) : SettingsRow :=
  { row with payload := payload }

def PolicyRecord.withStatus (record : PolicyRecord Blob) (status : PolicyStatus)
    (loadError : Option String) (loadedAtMs : Option Int) : PolicyRecord Blob :=
  { record with status := status, loadError := loadError, loadedAtMs := loadedAtMs }

def PolicyRecord.supersede (record : PolicyRecord Blob) : PolicyRecord Blob :=
  { record with status := .superseded }

def DraftChunkRecord.decide (chunk : DraftChunkRecord Blob) (status : ChunkStatus)
    (decidedAtMs : Option Int) : DraftChunkRecord Blob :=
  { chunk with status := status, decidedAtMs := decidedAtMs }

def DraftChunkRecord.withRule (chunk : DraftChunkRecord Blob) (proposedRule : Blob) :
    DraftChunkRecord Blob :=
  { chunk with proposedRule := proposedRule }

-- No statement assigns to a key column.

theorem SandboxRow.withMessage_id {message : Sandbox} (row : SandboxRow)
    (selected : decide (row.id = message.id) = true) : (row.withMessage message).id = row.id :=
  (of_decide_eq_true selected).symm

theorem SettingsRow.withPayload_scope (row : SettingsRow) (payload : StoredSettings) :
    (row.withPayload payload).scope = row.scope := rfl

theorem PolicyRecord.withStatus_key (record : PolicyRecord Blob) (status : PolicyStatus)
    (loadError : Option String) (loadedAtMs : Option Int) :
    (record.withStatus status loadError loadedAtMs).key = record.key := rfl

theorem PolicyRecord.supersede_key (record : PolicyRecord Blob) : record.supersede.key = record.key := rfl

theorem DraftChunkRecord.decide_id (chunk : DraftChunkRecord Blob) (status : ChunkStatus)
    (decidedAtMs : Option Int) : (chunk.decide status decidedAtMs).id = chunk.id := rfl

theorem DraftChunkRecord.withRule_id (chunk : DraftChunkRecord Blob) (proposedRule : Blob) :
    (chunk.withRule proposedRule).id = chunk.id := rfl

namespace Store

def uniqueViolation (columns : String) : String :=
  "execution error: database error: error returned from database: (code: 2067) UNIQUE constraint failed: " ++ columns

def getSandboxByName (store : Store Blob) (name : String) : Option Sandbox :=
  (store.sandboxes.rows.find? (fun row => row.name = name)).map SandboxRow.message

def getSandbox (store : Store Blob) (id : String) : Option Sandbox :=
  (store.sandboxes.lookup id).map SandboxRow.message

/-- `put_message`: an existing id keeps its name column and receives the new payload. -/
def putSandbox (store : Store Blob) (message : Sandbox) : Except String (Store Blob) :=
  match store.sandboxes.lookup message.id with
  | some _ => .ok { store with
      sandboxes := store.sandboxes.update (fun row => row.id = message.id)
        (fun row => row.withMessage message) SandboxRow.withMessage_id }
  | none =>
    if store.sandboxes.rows.any (fun row => row.name = message.name) then
      .error (uniqueViolation "objects.object_type, objects.name")
    else
      match store.sandboxes.insert ⟨message.name, message⟩ with
      | some sandboxes => .ok { store with sandboxes := sandboxes }
      | none => .error (uniqueViolation "objects.id")

def getSettings (store : Store Blob) (scope : SettingsScope) : Option StoredSettings :=
  (store.settings.lookup scope).map SettingsRow.payload

def putSettings (store : Store Blob) (scope : SettingsScope) (name : String) (payload : StoredSettings) :
    Except String (Store Blob) :=
  match store.settings.lookup scope with
  | some _ => .ok { store with
      settings := store.settings.update (fun row => row.scope = scope)
        (fun row => row.withPayload payload) (fun row _ => row.withPayload_scope payload) }
  | none =>
    if store.settings.rows.any (fun row => row.scope.sameType scope && row.name = name) then
      .error (uniqueViolation "objects.object_type, objects.name")
    else
      match store.settings.insert ⟨scope, name, payload⟩ with
      | some settings => .ok { store with settings := settings }
      | none => .error (uniqueViolation "objects.id")

def getLatestPolicy (store : Store Blob) (sandboxId : String) : Option (PolicyRecord Blob) :=
  store.policies.latest (fun record => record.sandboxId = sandboxId) PolicyRecord.version

def putPolicyRevision (store : Store Blob) (sandboxId : String) (version : Nat) (payload : Blob)
    (hash : String) : Except String (Store Blob) :=
  match store.policies.insert
      { sandboxId := sandboxId, version := version, policyPayload := payload, policyHash := hash,
        status := .pending } with
  | some policies => .ok { store with policies := policies }
  | none => .error (uniqueViolation "sandbox_policies.sandbox_id, sandbox_policies.version")

def updatePolicyStatus (store : Store Blob) (sandboxId : String) (version : Nat)
    (status : PolicyStatus) (loadError : Option String) (loadedAtMs : Option Int) : Store Blob :=
  { store with
    policies := store.policies.update
      (fun record => record.sandboxId = sandboxId ∧ record.version = version)
      (fun record => record.withStatus status loadError loadedAtMs)
      (fun record _ => record.withStatus_key status loadError loadedAtMs) }

def superseded (sandboxId : String) (beforeVersion : Nat) (record : PolicyRecord Blob) : Bool :=
  record.sandboxId = sandboxId ∧ record.version < beforeVersion ∧
    (record.status = .pending ∨ record.status = .loaded)

def supersedeOlderPolicies (store : Store Blob) (sandboxId : String) (beforeVersion : Nat) :
    Store Blob :=
  { store with
    policies := store.policies.update (superseded sandboxId beforeVersion)
      PolicyRecord.supersede (fun record _ => record.supersede_key) }

def listDraftChunks (store : Store Blob) (sandboxId : String) (status : Option ChunkStatus) :
    List (DraftChunkRecord Blob) :=
  (store.chunks.rows.filter fun chunk =>
      chunk.sandboxId = sandboxId ∧ status.all (fun wanted => chunk.status = wanted)).mergeSort
    (fun first second => second.createdAtMs ≤ first.createdAtMs)

def updateDraftChunkStatus (store : Store Blob) (id : String) (status : ChunkStatus)
    (decidedAtMs : Option Int) : Store Blob :=
  { store with
    chunks := store.chunks.update (fun chunk => chunk.id = id)
      (fun chunk => chunk.decide status decidedAtMs) (fun chunk _ => chunk.decide_id status decidedAtMs) }

def updateDraftChunkRule (store : Store Blob) (id : String) (proposedRule : Blob) : Store Blob :=
  { store with
    chunks := store.chunks.update (fun chunk => chunk.id = id ∧ chunk.status = .pending)
      (fun chunk => chunk.withRule proposedRule) (fun chunk _ => chunk.withRule_id proposedRule) }

def deleteDraftChunks (store : Store Blob) (sandboxId : String) (status : ChunkStatus) : Store Blob :=
  { store with
    chunks := store.chunks.delete (fun chunk => chunk.sandboxId = sandboxId ∧ chunk.status = status) }

def write (store : Store Blob) : Except String (Store Blob) → Except String Unit × Store Blob
  | .ok result => (.ok (), result)
  | .error text => (.error text, store)

/-- The store without faults: every statement succeeds unless a constraint forbids it. -/
def exec : (op : StoreOp Blob) → Store Blob → StoreOp.Answer op × Store Blob
  | .getSettings scope, store => (.ok (store.getSettings scope), store)
  | .putSettings scope name payload, store => store.write (store.putSettings scope name payload)
  | .getSandboxByName name, store => (.ok (store.getSandboxByName name), store)
  | .getSandbox id, store => (.ok (store.getSandbox id), store)
  | .putSandbox message, store => store.write (store.putSandbox message)
  | .getLatestPolicy sandboxId, store => (.ok (store.getLatestPolicy sandboxId), store)
  | .putPolicyRevision sandboxId version payload hash, store =>
    store.write (store.putPolicyRevision sandboxId version payload hash)
  | .updatePolicyStatus sandboxId version status loadError loadedAtMs, store =>
    (.ok (store.policies.lookup (sandboxId, version)).isSome,
      store.updatePolicyStatus sandboxId version status loadError loadedAtMs)
  | .supersedeOlderPolicies sandboxId beforeVersion, store =>
    (.ok (store.policies.rows.countP (superseded sandboxId beforeVersion)),
      store.supersedeOlderPolicies sandboxId beforeVersion)
  | .getDraftChunk id, store => (.ok (store.chunks.lookup id), store)
  | .listDraftChunks sandboxId status, store => (.ok (store.listDraftChunks sandboxId status), store)
  | .updateDraftChunkStatus id status decidedAtMs, store =>
    (.ok (store.chunks.lookup id).isSome, store.updateDraftChunkStatus id status decidedAtMs)
  | .updateDraftChunkRule id proposedRule, store =>
    (.ok (store.chunks.rows.any fun chunk => chunk.id = id ∧ chunk.status = .pending),
      store.updateDraftChunkRule id proposedRule)
  | .deleteDraftChunks sandboxId status, store =>
    (.ok (store.chunks.rows.countP fun chunk => chunk.sandboxId = sandboxId ∧ chunk.status = status),
      store.deleteDraftChunks sandboxId status)
  | .currentTimeMs, store => (.ok store.nowMs, store)

/-! What a write of settings or of a sandbox record changes. -/

variable {store after : Store Blob}

theorem putSettings_frame {scope : SettingsScope} {name : String} {payload : StoredSettings}
    (written : store.putSettings scope name payload = .ok after) :
    after.policies = store.policies ∧ after.sandboxes = store.sandboxes := by
  unfold putSettings at written
  split at written
  · cases written
    exact ⟨rfl, rfl⟩
  · split at written
    · cases written
    · split at written
      · cases written
        exact ⟨rfl, rfl⟩
      · cases written

theorem putSandbox_rows {message : Sandbox} (written : store.putSandbox message = .ok after) :
    after.policies = store.policies ∧
      ∀ row ∈ after.sandboxes, row.message = message ∨ row ∈ store.sandboxes := by
  unfold putSandbox at written
  split at written
  · cases written
    refine ⟨rfl, fun row member => ?_⟩
    rw [Table.mem_update] at member
    obtain ⟨old, oldMember, same⟩ := member
    split at same
    · left
      rw [same]
      rfl
    · right
      rw [same]
      exact oldMember
  · split at written
    · cases written
    · split at written
      · rename_i inserted
        cases written
        refine ⟨rfl, fun row member => ?_⟩
        rw [Table.mem_rows, (Table.insert_some inserted).1] at member
        rcases List.mem_append.mp member with earlier | added
        · exact .inr earlier
        · left
          rw [List.mem_singleton.mp added]
      · cases written

theorem getSandbox_putSandbox {message held : Sandbox} (written : store.putSandbox message = .ok after)
    (present : store.getSandbox message.id = some held) (id : String) :
    after.getSandbox id = (if id = message.id then some message else store.getSandbox id) ∧
      after.policies = store.policies := by
  unfold getSandbox at present ⊢
  obtain ⟨row, found, _⟩ := Option.map_eq_some_iff.mp present
  unfold Store.putSandbox at written
  rw [found] at written
  cases written
  refine ⟨?_, rfl⟩
  simp only [Table.lookup_update]
  by_cases same : id = message.id
  · have keyed := (Table.lookup_some.mp found).2
    subst same
    rw [found, if_pos rfl]
    simp [keyed, SandboxRow.withMessage]
  · rw [if_neg same]
    cases other : store.sandboxes.lookup id with
    | none => rfl
    | some otherRow =>
      have keyed := (Table.lookup_some.mp other).2
      have unselected : ¬ otherRow.id = message.id := fun equal => same (keyed.symm.trans equal)
      simp [unselected]

theorem putSandbox_present {message held : Sandbox} (present : store.getSandbox message.id = some held) :
    ∃ result, store.putSandbox message = .ok result := by
  unfold getSandbox at present
  obtain ⟨row, found, _⟩ := Option.map_eq_some_iff.mp present
  unfold Store.putSandbox
  rw [found]
  exact ⟨_, rfl⟩

theorem getSandbox_id {id : String} {sandbox : Sandbox} (present : store.getSandbox id = some sandbox) :
    sandbox.id = id := by
  unfold getSandbox at present
  obtain ⟨row, found, same⟩ := Option.map_eq_some_iff.mp present
  subst same
  exact (Table.lookup_some.mp found).2

theorem getSandbox_of_name {name : String} {sandbox : Sandbox}
    (found : store.getSandboxByName name = some sandbox) : store.getSandbox sandbox.id = some sandbox := by
  unfold getSandboxByName at found
  obtain ⟨row, atName, same⟩ := Option.map_eq_some_iff.mp found
  subst same
  have keyed : store.sandboxes.lookup row.message.id = some row :=
    Table.lookup_some.mpr ⟨List.mem_of_find?_eq_some atName, rfl⟩
  unfold getSandbox
  rw [keyed]
  rfl

end Store

end OpenShell.Server
