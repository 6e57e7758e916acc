import OpenShell.Server.UpdateConfig

namespace OpenShell.Server

open OpenShell.Policy Effects Effects.Fallible

variable {Blob α β : Type}

def Sends (allowed : StoreOp Blob → Prop) (program : Handler Blob α) : Prop := program.Requests allowed

namespace Sends

variable {allowed : StoreOp Blob → Prop}

theorem bind {first : Handler Blob α} {next : α → Handler Blob β} (before : Sends allowed first)
    (rest : ∀ value, Sends allowed (next value)) : Sends allowed (first >>= next) :=
  Requests.bind before rest

theorem pure (value : α) : Sends allowed (Pure.pure value : Handler Blob α) := True.intro

theorem fail (status : Status) : Sends allowed (Fallible.fail status : Handler Blob α) := True.intro

theorem lift (result : Except Status α) : Sends allowed (Fallible.lift result : Handler Blob α) :=
  True.intro

theorem ask {op : StoreOp Blob} (permitted : allowed op) : Sends allowed (Server.ask op) :=
  Requests.perform (I := storeInterface Blob) permitted

theorem guard (condition : Bool) (status : Status) :
    Sends allowed (ensure condition status : Handler Blob Unit) :=
  Requests.ensure condition status

theorem orInternal (problem : String) (answer : Except String α) :
    Sends allowed (Server.orInternal problem answer : Handler Blob α) := by
  cases answer <;> exact True.intro

theorem orElse (status : Status) (value : Option α) :
    Sends allowed (Server.orElse status value : Handler Blob α) := by
  cases value <;> exact True.intro

theorem requests {program : Handler Blob α} (sends : Sends allowed program) : program.Requests allowed := sends

-- From here on the rules above stand for the definition, which would run the program.
attribute [irreducible] Sends

theorem fetchSandbox {name : String} (permitted : allowed (.getSandboxByName name)) :
    Sends allowed (Server.fetchSandbox name) := by
  apply bind (ask permitted)
  intro answer
  apply bind (orInternal _ _)
  intro found
  exact orElse _ _

theorem fetchChunk {chunkId : String} (permitted : allowed (.getDraftChunk chunkId)) :
    Sends allowed (Server.fetchChunk chunkId) := by
  apply bind (ask permitted)
  intro answer
  apply bind (orInternal _ _)
  intro found
  exact orElse _ _

theorem setChunkStatus {chunkId : String} {status : ChunkStatus} {decidedAtMs : Option Int}
    (permitted : allowed (.updateDraftChunkStatus chunkId status decidedAtMs)) :
    Sends allowed (Server.setChunkStatus chunkId status decidedAtMs) :=
  bind (ask permitted) fun _ => orInternal _ _

theorem decisionTime (permitted : allowed .currentTimeMs) : Sends allowed Server.decisionTime :=
  bind (ask permitted) fun _ => orInternal _ _

theorem loadSettingsRecord {scope : SettingsScope} (permitted : allowed (.getSettings scope)) :
    Sends allowed (Server.loadSettingsRecord scope) := by
  apply bind (ask permitted)
  intro answer
  apply bind (orInternal _ _)
  intro record
  exact pure _

theorem requireNoGlobalPolicy (permitted : allowed (.getSettings .global)) :
    Sends allowed Server.requireNoGlobalPolicy := by
  apply bind (loadSettingsRecord permitted)
  intro settings
  exact guard _ _

theorem bumpAndSave {save : StoredSettings → Handler Blob Unit} (saves : ∀ settings, Sends allowed (save settings))
    (current : StoredSettings) (changed : Option (StringMap StoredSettingValue)) :
    Sends allowed (Server.bumpAndSave save current changed) := by
  cases changed with
  | none => exact pure _
  | some settings =>
    apply bind (saves _)
    intro _
    exact pure _

section Settings

variable (reads : ∀ scope, allowed (.getSettings scope))
  (writes : ∀ scope name payload, allowed (.putSettings scope name payload))
include writes

theorem saveSettingsRecord (scope : SettingsScope) (name : String) (settings : StoredSettings) :
    Sends allowed (Server.saveSettingsRecord scope name settings) :=
  bind (ask (writes _ _ _)) fun _ => orInternal _ _

include reads

theorem updateSandboxSetting (request : UpdateConfigRequest) (sandbox : Sandbox) :
    Sends allowed (Server.updateSandboxSetting request sandbox) := by
  have saves : ∀ settings, Sends allowed (saveSandboxSettings sandbox.id sandbox.name settings) :=
    fun settings => saveSettingsRecord writes _ _ settings
  apply bind (guard _ _)
  intro _
  apply bind (loadSettingsRecord (reads _))
  intro globalSettings
  simp only
  split
  · apply bind (guard _ _)
    intro _
    apply bind (loadSettingsRecord (reads _))
    intro settings
    apply bind (bumpAndSave saves _ _)
    intro revision
    exact pure _
  · apply bind (guard _ _)
    intro _
    apply bind (lift _)
    intro stored
    apply bind (loadSettingsRecord (reads _))
    intro settings
    apply bind (bumpAndSave saves _ _)
    intro revision
    exact pure _

theorem recordGlobalPolicy (wire : Wire Blob) (payload : Blob) :
    Sends allowed (Server.recordGlobalPolicy wire payload) := by
  apply bind (loadSettingsRecord (reads _))
  intro settings
  exact bumpAndSave (saveSettingsRecord writes _ _) _ _

theorem updateGlobalSetting (request : UpdateConfigRequest) (fetches : ∀ owner, allowed (.getLatestPolicy owner))
    (supersedes : ∀ owner version, allowed (.supersedeOlderPolicies owner version)) :
    Sends allowed (Server.updateGlobalSetting request) := by
  have saves : ∀ settings, Sends allowed (saveGlobalSettings settings) :=
    fun settings => saveSettingsRecord writes _ _ settings
  have retires : Sends allowed (retireGlobalPolicy : Handler Blob Unit) := by
    apply bind (ask (fetches _))
    intro latest
    split
    · exact bind (ask (supersedes _ _)) fun _ => pure _
    · exact pure _
  apply bind (guard _ _)
  intro _
  extract_lets later
  have applies : ∀ known, Sends allowed (later known) := by
    intro known
    apply bind (loadSettingsRecord (reads _))
    intro settings
    split
    · extract_lets removed saved
      have finishes : ∀ retired, Sends allowed (saved retired) :=
        fun retired => bind (bumpAndSave saves _ _) fun _ => pure _
      split
      · exact bind retires finishes
      · exact finishes ()
    · apply bind (lift _)
      intro stored
      exact bind (bumpAndSave saves _ _) fun _ => pure _
  split
  · exact bind (lift _) fun _ => applies ()
  · exact applies ()

end Settings

end Sends

/-- Statements that neither assign a load status nor write a sandbox record. -/
def StoreOp.quiet : StoreOp Blob → Bool
  | .updatePolicyStatus .. => false
  | .putSandbox _ => false
  | _ => true

abbrev Quiet (program : Handler Blob α) : Prop := Sends (fun op => op.quiet = true) program

variable (wire : Wire Blob) (lower : String → String)

theorem quiet_putRevision (sandboxId : String) (version : Nat) (policy : SandboxPolicy) :
    Quiet (putRevision wire sandboxId version policy) := by
  refine Sends.bind (Sends.ask rfl) ?_
  intro answer
  cases answer with
  | ok _ =>
    refine Sends.bind (Sends.ask rfl) ?_
    intro _
    exact Sends.pure _
  | error text =>
    simp only
    split
    · exact Sends.pure _
    · exact Sends.fail _

theorem quiet_mergeBase (latest : Option (PolicyRecord Blob)) : Quiet (mergeBase wire latest) := by
  cases latest with
  | none => exact Sends.pure _
  | some record =>
    refine Sends.bind (Sends.orInternal _ _) ?_
    intro policy
    exact Sends.pure _

theorem quiet_mergeAttempts (sandboxId : String) (chunk : DraftChunkRecord Blob)
    (rule : NetworkPolicyRule) (attempts : Nat) :
    Quiet (mergeAttempts wire lower sandboxId chunk rule attempts) := by
  induction attempts with
  | zero => exact Sends.fail _
  | succ attempts ih =>
    refine Sends.bind (Sends.ask rfl) ?_
    intro answer
    refine Sends.bind (Sends.orInternal _ _) ?_
    intro latest
    refine Sends.bind (quiet_mergeBase wire latest) ?_
    intro base
    refine Sends.bind (quiet_putRevision wire _ _ _) ?_
    intro written
    cases written with
    | none => exact ih
    | some revision => exact Sends.pure _

theorem quiet_mergeChunkIntoPolicy (sandboxId : String) (chunk : DraftChunkRecord Blob) :
    Quiet (mergeChunkIntoPolicy wire lower sandboxId chunk) := by
  refine Sends.bind (Sends.orInternal _ _) ?_
  intro rule
  exact quiet_mergeAttempts wire lower sandboxId chunk rule mergeRetryLimit

theorem quiet_removeAttempts (sandboxId : String) (chunk : DraftChunkRecord Blob) (attempts : Nat) :
    Quiet (removeAttempts wire sandboxId chunk attempts) := by
  induction attempts with
  | zero => exact Sends.fail _
  | succ attempts ih =>
    refine Sends.bind (Sends.ask rfl) ?_
    intro answer
    refine Sends.bind (Sends.orInternal _ _) ?_
    intro found
    refine Sends.bind (Sends.orElse _ _) ?_
    intro latest
    refine Sends.bind (Sends.orInternal _ _) ?_
    intro policy
    refine Sends.bind (quiet_putRevision wire _ _ _) ?_
    intro written
    cases written with
    | none => exact ih
    | some revision => exact Sends.pure _

theorem quiet_removeChunkFromPolicy (sandboxId : String) (chunk : DraftChunkRecord Blob) :
    Quiet (removeChunkFromPolicy wire sandboxId chunk) :=
  quiet_removeAttempts wire sandboxId chunk mergeRetryLimit

theorem quiet_approve (request : ChunkRequest) : Quiet (handleApproveDraftChunk wire lower request) := by
  refine Sends.bind (Sends.guard _ _) ?_
  intro _
  refine Sends.bind (Sends.guard _ _) ?_
  intro _
  refine Sends.bind (Sends.requireNoGlobalPolicy rfl) ?_
  intro _
  refine Sends.bind (Sends.fetchSandbox rfl) ?_
  intro sandbox
  refine Sends.bind (Sends.fetchChunk rfl) ?_
  intro chunk
  refine Sends.bind (Sends.guard _ _) ?_
  intro _
  refine Sends.bind (quiet_mergeChunkIntoPolicy wire lower _ _) ?_
  intro written
  refine Sends.bind (Sends.decisionTime rfl) ?_
  intro nowMs
  refine Sends.bind (Sends.setChunkStatus rfl) ?_
  intro _
  exact Sends.pure _

theorem quiet_approveEach (sandboxId : String) (flagged : Bool) (chunks : List (DraftChunkRecord Blob))
    (done : ApproveAllDraftChunksResponse) :
    Quiet (approveEach wire lower sandboxId flagged chunks done) := by
  induction chunks generalizing done with
  | nil => exact Sends.pure _
  | cons chunk rest ih =>
    unfold approveEach
    split
    · exact ih _
    · refine Sends.bind (quiet_mergeChunkIntoPolicy wire lower _ _) ?_
      intro written
      refine Sends.bind (Sends.decisionTime rfl) ?_
      intro nowMs
      refine Sends.bind (Sends.setChunkStatus rfl) ?_
      intro _
      exact ih _

theorem quiet_approveAll (request : ApproveAllDraftChunksRequest) :
    Quiet (handleApproveAllDraftChunks wire lower request) := by
  refine Sends.bind (Sends.guard _ _) ?_
  intro _
  refine Sends.bind (Sends.requireNoGlobalPolicy rfl) ?_
  intro _
  refine Sends.bind (Sends.fetchSandbox rfl) ?_
  intro sandbox
  refine Sends.bind (Sends.ask rfl) ?_
  intro answer
  refine Sends.bind (Sends.orInternal _ _) ?_
  intro pending
  refine Sends.bind (Sends.guard _ _) ?_
  intro _
  exact quiet_approveEach wire lower _ _ _ _

theorem quiet_revokeApproved (sandboxId : String) (chunk : DraftChunkRecord Blob) :
    Quiet (revokeApproved wire sandboxId chunk) := by
  unfold revokeApproved
  split
  · refine Sends.bind (Sends.requireNoGlobalPolicy rfl) ?_
    intro _
    refine Sends.bind (quiet_removeChunkFromPolicy wire _ _) ?_
    intro _
    exact Sends.pure _
  · exact Sends.pure _

theorem quiet_reject (request : ChunkRequest) : Quiet (handleRejectDraftChunk wire request) := by
  refine Sends.bind (Sends.guard _ _) ?_
  intro _
  refine Sends.bind (Sends.guard _ _) ?_
  intro _
  refine Sends.bind (Sends.fetchSandbox rfl) ?_
  intro sandbox
  refine Sends.bind (Sends.fetchChunk rfl) ?_
  intro chunk
  refine Sends.bind (Sends.guard _ _) ?_
  intro _
  refine Sends.bind (quiet_revokeApproved wire _ _) ?_
  intro _
  refine Sends.bind (Sends.decisionTime rfl) ?_
  intro nowMs
  refine Sends.bind (Sends.setChunkStatus rfl) ?_
  intro _
  exact Sends.pure _

theorem quiet_undo (request : ChunkRequest) : Quiet (handleUndoDraftChunk wire request) := by
  refine Sends.bind (Sends.guard _ _) ?_
  intro _
  refine Sends.bind (Sends.guard _ _) ?_
  intro _
  refine Sends.bind (Sends.fetchSandbox rfl) ?_
  intro sandbox
  refine Sends.bind (Sends.fetchChunk rfl) ?_
  intro chunk
  refine Sends.bind (Sends.guard _ _) ?_
  intro _
  refine Sends.bind (quiet_removeChunkFromPolicy wire _ _) ?_
  intro written
  refine Sends.bind (Sends.setChunkStatus rfl) ?_
  intro _
  exact Sends.pure _

theorem quiet_persistRevision (sandboxId : String) (latest : Option (PolicyRecord Blob))
    (policy : SandboxPolicy) (problem : String) :
    Quiet (persistRevision wire sandboxId latest policy problem) := by
  refine Sends.bind (Sends.ask rfl) ?_
  intro answer
  refine Sends.bind (Sends.orInternal _ _) ?_
  intro _
  exact Sends.pure _

theorem quiet_writeUpdate (sandboxId : String) (policy : SandboxPolicy) :
    Quiet (writeUpdate wire sandboxId policy) := by
  refine Sends.bind (Sends.ask rfl) ?_
  intro answer
  refine Sends.bind (Sends.orInternal _ _) ?_
  intro latest
  simp only
  split
  · exact Sends.pure _
  · refine Sends.bind (quiet_persistRevision wire _ _ _ _) ?_
    intro nextVersion
    refine Sends.bind (Sends.ask rfl) ?_
    intro _
    exact Sends.pure _

end OpenShell.Server
