import OpenShell.Server.Sends
import OpenShell.Server.Revisions
import OpenShell.Server.Rules

namespace OpenShell.Server

open OpenShell.Policy Effects Effects.Fallible Relational

variable {Blob : Type}

/-! Which policies come to be stored, over runs of the calls that write them. -/

def Sandbox.specPolicy (sandbox : Sandbox) : Option SandboxPolicy := sandbox.spec.bind SandboxSpec.policy

/-- A record as `CreateSandbox` stores it: a policy that comes with the request is checked first. -/
structure NewSandbox where
  message : Sandbox
  checked : ∀ policy, message.specPolicy = some policy → policy.Safe

inductive StoredCall (Blob : Type) where
  | create (sandbox : NewSandbox)
  | submit (chunk : DraftChunkRecord Blob)
  | update (request : UpdateConfigRequest)
  | approve (request : ChunkRequest)
  | approveAll (request : ApproveAllDraftChunksRequest)
  | reject (request : ChunkRequest)
  | edit (request : EditDraftChunkRequest)
  | undo (request : ChunkRequest)
  | clear (name : String)

/-- Every revision and every `spec.policy` passes the check of `validate_sandbox_policy`. -/
structure Store.SafePolicies (wire : Wire Blob) (store : Store Blob) : Prop where
  revisions : ∀ record ∈ store.policies, ∃ policy, record.policyPayload = wire.encodePolicy policy ∧ policy.Safe
  specs : ∀ row ∈ store.sandboxes, ∀ policy, row.message.specPolicy = some policy → policy.Safe

def StoreOp.Vetted (wire : Wire Blob) : StoreOp Blob → Prop
  | .putPolicyRevision _ _ payload _ => ∃ policy, payload = wire.encodePolicy policy ∧ policy.Safe
  | .putSandbox message => ∀ policy, message.specPolicy = some policy → policy.Safe
  | _ => True

/-- The update finds a sandbox without a policy of its own and passes the checks before the backfill. -/
structure UpdateConfigRequest.Backfills (request : UpdateConfigRequest) (store : Store Blob) (sandbox : Sandbox)
    (spec : SandboxSpec) (policy : SandboxPolicy) : Prop where
  sandboxScoped : request.global = false
  submitted : request.policy = some policy
  alone : request.key.isEmpty = true
  named : request.name.isEmpty = false
  found : store.getSandboxByName request.name = some sandbox
  unfrozen : store.globalPolicy = false
  specified : sandbox.spec = some spec
  baseless : spec.policy = none

namespace StoredCall

variable (wire : Wire Blob) (lower : String → String)

def outcome (store : Store Blob) : StoredCall Blob → Store Blob
  | create sandbox => (Store.exec (.putSandbox sandbox.message) store).2
  | submit chunk => (store.chunks.insert chunk).elim store fun chunks => { store with chunks := chunks }
  | update request => ((handleUpdateConfig wire request).run Store.exec store).2
  | approve request => ((handleApproveDraftChunk wire lower request).run Store.exec store).2
  | approveAll request => ((handleApproveAllDraftChunks wire lower request).run Store.exec store).2
  | reject request => ((handleRejectDraftChunk wire request).run Store.exec store).2
  | edit request => ((handleEditDraftChunk wire request).run Store.exec store).2
  | undo request => ((handleUndoDraftChunk wire request).run Store.exec store).2
  | clear name => ((handleClearDraftChunks name).run Store.exec store).2

def outcomes (store : Store Blob) (calls : List (StoredCall Blob)) : Store Blob :=
  calls.foldl (outcome wire lower) store

/-- What a backfill writes is safe once the process identity has been filled in. -/
def Vetted (store : Store Blob) : StoredCall Blob → Prop
  | update request => ∀ sandbox spec policy, request.Backfills store sandbox spec policy →
      (ensureSandboxProcessIdentity policy).Safe
  | _ => True

def AllVetted : Store Blob → List (StoredCall Blob) → Prop
  | _, [] => True
  | store, call :: rest => call.Vetted store ∧ AllVetted (call.outcome wire lower store) rest

end StoredCall

/-! One statement of the store. -/

namespace Store

variable {wire : Wire Blob} {store after : Store Blob}

theorem SafePolicies.transfer (safe : store.SafePolicies wire)
    (policies : ∀ record ∈ after.policies, ∃ old ∈ store.policies, record.policyPayload = old.policyPayload)
    (sandboxes : after.sandboxes = store.sandboxes) : after.SafePolicies wire := by
  refine ⟨fun record member => ?_, sandboxes ▸ safe.specs⟩
  obtain ⟨old, oldMember, same⟩ := policies record member
  rw [same]
  exact safe.revisions old oldMember

theorem SafePolicies.frame (safe : store.SafePolicies wire) (policies : after.policies = store.policies)
    (sandboxes : after.sandboxes = store.sandboxes) : after.SafePolicies wire :=
  safe.transfer (fun record member => ⟨record, policies ▸ member, rfl⟩) sandboxes

theorem SafePolicies.supersede (safe : store.SafePolicies wire) (owner : String) (bound : Nat) :
    (store.supersedeOlderPolicies owner bound).SafePolicies wire := by
  refine safe.transfer (fun record member => ?_) rfl
  obtain ⟨old, oldMember, same⟩ := mem_supersedeOlderPolicies.mp member
  exact ⟨old, oldMember, by rw [same, supersedeRow_policyPayload]⟩

theorem SafePolicies.updateStatus (safe : store.SafePolicies wire) (owner : String) (version : Nat)
    (status : PolicyStatus) (loadError : Option String) (loadedAtMs : Option Int) :
    (store.updatePolicyStatus owner version status loadError loadedAtMs).SafePolicies wire := by
  refine safe.transfer (fun record member => ?_) rfl
  obtain ⟨old, oldMember, same⟩ := mem_updatePolicyStatus.mp member
  refine ⟨old, oldMember, ?_⟩
  rw [same]
  split <;> rfl

theorem SafePolicies.put (safe : store.SafePolicies wire) {owner hash : String} {version : Nat} {payload : Blob}
    (vetted : ∃ policy, payload = wire.encodePolicy policy ∧ policy.Safe)
    (written : store.putPolicyRevision owner version payload hash = .ok after) : after.SafePolicies wire := by
  obtain ⟨rows, frame⟩ := putPolicyRevision_ok written
  refine ⟨fun record member => ?_, frame ▸ safe.specs⟩
  rw [Table.mem_rows, rows] at member
  rcases List.mem_append.mp member with earlier | added
  · exact safe.revisions record earlier
  · rw [List.mem_singleton.mp added]
    exact vetted

theorem SafePolicies.putSandbox (safe : store.SafePolicies wire) {message : Sandbox}
    (vetted : ∀ policy, message.specPolicy = some policy → policy.Safe)
    (written : store.putSandbox message = .ok after) : after.SafePolicies wire := by
  obtain ⟨policies, rows⟩ := putSandbox_rows written
  refine ⟨policies ▸ safe.revisions, fun row member policy given => ?_⟩
  rcases rows row member with new | old
  · exact vetted policy (new ▸ given)
  · exact safe.specs row old policy given

theorem SafePolicies.exec (safe : store.SafePolicies wire) {op : StoreOp Blob} (vetted : op.Vetted wire) :
    (Store.exec op store).2.SafePolicies wire := by
  cases op with
  | putSettings scope name payload =>
    simp only [Store.exec, write]
    cases written : store.putSettings scope name payload with
    | ok result => exact safe.frame (putSettings_frame written).1 (putSettings_frame written).2
    | error text => exact safe
  | putSandbox message =>
    simp only [Store.exec, write]
    cases written : store.putSandbox message with
    | ok result => exact safe.putSandbox vetted written
    | error text => exact safe
  | putPolicyRevision owner version payload hash =>
    simp only [Store.exec, write]
    cases written : store.putPolicyRevision owner version payload hash with
    | ok result => exact safe.put vetted written
    | error text => exact safe
  | supersedeOlderPolicies owner bound => exact safe.supersede owner bound
  | updatePolicyStatus owner version status loadError loadedAtMs =>
    exact safe.updateStatus owner version status loadError loadedAtMs
  | updateDraftChunkStatus id status decidedAtMs => exact safe.frame rfl rfl
  | updateDraftChunkRule id rule => exact safe.frame rfl rfl
  | deleteDraftChunks owner status => exact safe.frame rfl rfl
  | _ => exact safe

theorem SafePolicies.append (safe : store.SafePolicies wire) {policy : SandboxPolicy} (good : policy.Safe)
    (owner hash : String) : (store.appendRevision owner (wire.encodePolicy policy) hash).SafePolicies wire := by
  obtain ⟨result, written⟩ := store.putPolicyRevision_next owner (wire.encodePolicy policy) hash
  simp only [appendRevision, written]
  exact (safe.put ⟨policy, rfl, good⟩ written).supersede owner _

/-- A decoded revision reads as the policy that was encoded, so it is safe as well. -/
theorem SafePolicies.current (safe : store.SafePolicies wire) {owner : String} {policy : SandboxPolicy}
    (decoded : currentPolicy wire store owner = .ok policy) : policy.Safe := by
  unfold currentPolicy at decoded
  cases found : store.getLatestPolicy owner with
  | none =>
    rw [found] at decoded
    cases decoded
    exact SandboxPolicy.safe_default
  | some record =>
    rw [found, Option.elim_some] at decoded
    obtain ⟨stored, payload, good⟩ := safe.revisions record (Table.latest_some found).1
    obtain ⟨again, round, same⟩ := wire.policy_round_trip stored
    rw [payload, round] at decoded
    cases decoded
    exact good.of_sections same.process same.filesystem

end Store

/-! One call. -/

variable {wire : Wire Blob} {lower : String → String} {store : Store Blob}

theorem validatePolicySafety_ok {policy : SandboxPolicy} (passed : validatePolicySafety policy = .ok ()) :
    policy.Safe := by
  unfold validatePolicySafety at passed
  split at passed
  · cases passed
  · assumption
  · cases passed

theorem leaves_of_vetted {α : Type} {program : Handler Blob α} (safe : store.SafePolicies wire)
    (sends : Sends (StoreOp.Vetted wire) program) : Leaves (Store.SafePolicies wire) program store :=
  Requests.run_preserves (I := storeInterface Blob) Store.exec sends.requests
    (fun _ _ permitted held => held.exec permitted) safe

theorem leaves_of_refuses {α : Type} {program : Handler Blob α} {invariant : Store Blob → Prop}
    (holds : invariant store) (refused : Refuses program store) : Leaves invariant program store := by
  obtain ⟨status, failed⟩ := refused
  unfold Leaves
  rw [failed]
  exact holds

theorem mergeChunk_safe {policy : SandboxPolicy} (safe : policy.Safe) (chunk : DraftChunkRecord Blob)
    (rule : NetworkPolicyRule) : (mergeChunk lower policy chunk rule).Safe := by
  unfold mergeChunk
  split
  · split
    · exact safe.of_sections rfl rfl
    · exact safe
  · exact safe.of_sections rfl rfl

theorem removeChunk_safe {policy : SandboxPolicy} (safe : policy.Safe) (chunk : DraftChunkRecord Blob) :
    (removeChunk policy chunk).Safe := by
  unfold removeChunk
  split
  · simp only
    split
    · exact safe.of_sections rfl rfl
    · exact safe.of_sections rfl rfl
  · exact safe

theorem leaves_merge (safe : store.SafePolicies wire) (sandboxId : String) (chunk : DraftChunkRecord Blob) :
    Leaves (Store.SafePolicies wire) (mergeChunkIntoPolicy wire lower sandboxId chunk) store := by
  by_cases ready : ∃ rule policy, Mergeable wire store sandboxId chunk rule policy
  · obtain ⟨rule, policy, mergeable⟩ := ready
    unfold Leaves
    rw [run_mergeChunkIntoPolicy wire lower mergeable]
    exact safe.append (mergeChunk_safe (safe.current mergeable.2) chunk rule) _ _
  · exact leaves_of_refuses safe (run_mergeChunkIntoPolicy_error wire lower ready)

theorem leaves_remove (safe : store.SafePolicies wire) (sandboxId : String) (chunk : DraftChunkRecord Blob) :
    Leaves (Store.SafePolicies wire) (removeChunkFromPolicy wire sandboxId chunk) store := by
  by_cases ready : ∃ policy, Removable wire store sandboxId policy
  · obtain ⟨policy, removable⟩ := ready
    have decoded : currentPolicy wire store sandboxId = .ok policy := by
      obtain ⟨record, found, decoded⟩ := removable
      simp only [currentPolicy, found, Option.elim_some, decoded]
    unfold Leaves
    rw [run_removeChunkFromPolicy wire removable]
    exact safe.append (removeChunk_safe (safe.current decoded) chunk) _ _
  · exact leaves_of_refuses safe (run_removeChunkFromPolicy_error wire ready)

theorem leaves_approve (safe : store.SafePolicies wire) (request : ChunkRequest) :
    Leaves (Store.SafePolicies wire) (handleApproveDraftChunk wire lower request) store := by
  apply Leaves.guard safe
  intro _
  apply Leaves.guard safe
  intro _
  apply Leaves.noGlobalPolicy safe
  intro _
  apply Leaves.fetchSandbox safe
  intro sandbox _
  apply Leaves.fetchChunk safe
  intro chunk _
  apply Leaves.guard safe
  intro _
  apply Leaves.bind (leaves_merge safe _ _)
  intro written after _ held
  apply leaves_of_vetted held
  apply Sends.bind (Sends.decisionTime True.intro)
  intro nowMs
  apply Sends.bind (Sends.setChunkStatus True.intro)
  intro _
  exact Sends.pure _

theorem leaves_approveEach (sandboxId : String) (flagged : Bool) (chunks : List (DraftChunkRecord Blob))
    (done : ApproveAllDraftChunksResponse) (safe : store.SafePolicies wire) :
    Leaves (Store.SafePolicies wire) (approveEach wire lower sandboxId flagged chunks done) store := by
  induction chunks generalizing done store with
  | nil => exact safe
  | cons chunk rest ih =>
    unfold approveEach
    split
    · exact ih _ safe
    · apply Leaves.bind (leaves_merge safe _ _)
      intro written merged _ held
      unfold Leaves
      rw [run_decisionTime_bind, run_setChunkStatus_bind]
      exact ih _ (held.frame rfl rfl)

theorem leaves_approveAll (safe : store.SafePolicies wire) (request : ApproveAllDraftChunksRequest) :
    Leaves (Store.SafePolicies wire) (handleApproveAllDraftChunks wire lower request) store := by
  apply Leaves.approveAll safe
  intro sandboxId
  exact leaves_approveEach _ _ _ _ safe

theorem leaves_reject (safe : store.SafePolicies wire) (request : ChunkRequest) :
    Leaves (Store.SafePolicies wire) (handleRejectDraftChunk wire request) store := by
  apply Leaves.guard safe
  intro _
  apply Leaves.guard safe
  intro _
  apply Leaves.fetchSandbox safe
  intro sandbox _
  apply Leaves.fetchChunk safe
  intro chunk _
  apply Leaves.guard safe
  intro _
  have revokes : Leaves (Store.SafePolicies wire) (revokeApproved wire sandbox.id chunk) store := by
    unfold revokeApproved
    split
    · apply Leaves.noGlobalPolicy safe
      intro _
      apply Leaves.bind (leaves_remove safe _ _)
      intro _ after _ held
      exact held
    · exact safe
  apply Leaves.bind revokes
  intro _ after _ held
  apply leaves_of_vetted held
  apply Sends.bind (Sends.decisionTime True.intro)
  intro nowMs
  apply Sends.bind (Sends.setChunkStatus True.intro)
  intro _
  exact Sends.pure _

theorem leaves_undo (safe : store.SafePolicies wire) (request : ChunkRequest) :
    Leaves (Store.SafePolicies wire) (handleUndoDraftChunk wire request) store := by
  apply Leaves.guard safe
  intro _
  apply Leaves.guard safe
  intro _
  apply Leaves.fetchSandbox safe
  intro sandbox _
  apply Leaves.fetchChunk safe
  intro chunk _
  apply Leaves.guard safe
  intro _
  apply Leaves.bind (leaves_remove safe _ _)
  intro written after _ held
  apply leaves_of_vetted held
  apply Sends.bind (Sends.setChunkStatus True.intro)
  intro _
  exact Sends.pure _

theorem vetted_edit (request : EditDraftChunkRequest) :
    Sends (StoreOp.Vetted wire) (handleEditDraftChunk wire request) := by
  apply Sends.bind (Sends.guard _ _)
  intro _
  apply Sends.bind (Sends.guard _ _)
  intro _
  apply Sends.bind (Sends.orElse _ _)
  intro rule
  apply Sends.bind (Sends.fetchSandbox True.intro)
  intro _
  apply Sends.bind (Sends.fetchChunk True.intro)
  intro chunk
  apply Sends.bind (Sends.guard _ _)
  intro _
  apply Sends.bind (Sends.ask True.intro)
  intro answer
  apply Sends.bind (Sends.orInternal _ _)
  intro _
  exact Sends.pure _

theorem vetted_clear (name : String) :
    Sends (StoreOp.Vetted wire) (handleClearDraftChunks name : Handler Blob UInt32) := by
  apply Sends.bind (Sends.guard _ _)
  intro _
  apply Sends.bind (Sends.fetchSandbox True.intro)
  intro sandbox
  apply Sends.bind (Sends.ask True.intro)
  intro answer
  apply Sends.bind (Sends.orInternal _ _)
  intro deleted
  exact Sends.pure _

theorem vetted_persistRevision {policy : SandboxPolicy} (good : policy.Safe) (sandboxId : String)
    (latest : Option (PolicyRecord Blob)) (problem : String) :
    Sends (StoreOp.Vetted wire) (persistRevision wire sandboxId latest policy problem) := by
  apply Sends.bind (Sends.ask ⟨policy, rfl, good⟩)
  intro answer
  apply Sends.bind (Sends.orInternal _ _)
  intro _
  exact Sends.pure _

theorem vetted_writeUpdate {policy : SandboxPolicy} (good : policy.Safe) (sandboxId : String) :
    Sends (StoreOp.Vetted wire) (writeUpdate wire sandboxId policy) := by
  apply Sends.bind (Sends.ask True.intro)
  intro answer
  apply Sends.bind (Sends.orInternal _ _)
  intro latest
  simp only
  split
  · exact Sends.pure _
  · apply Sends.bind (vetted_persistRevision good _ _ _)
    intro nextVersion
    apply Sends.bind (Sends.ask True.intro)
    intro _
    exact Sends.pure _

theorem leaves_updateGlobalPolicy (safe : store.SafePolicies wire) (request : UpdateConfigRequest)
    (submitted : SandboxPolicy) :
    Leaves (Store.SafePolicies wire) (updateGlobalPolicy wire request submitted) store := by
  apply Leaves.guard safe
  intro _
  apply Leaves.bind (leaves_of_vetted safe (Sends.lift _))
  intro _ after passed held
  simp only [run_lift, Prod.mk.injEq] at passed
  have good := validatePolicySafety_ok passed.1
  apply leaves_of_vetted held
  apply Sends.bind (Sends.ask True.intro)
  intro answer
  apply Sends.bind (Sends.orInternal _ _)
  intro latest
  have records : ∀ payload, Sends (StoreOp.Vetted wire) (recordGlobalPolicy wire payload) :=
    Sends.recordGlobalPolicy (fun _ => True.intro) (fun _ _ _ => True.intro) wire
  simp only
  split
  · exact Sends.bind (records _) fun _ => Sends.pure _
  · apply Sends.bind (vetted_persistRevision good _ _ _)
    intro nextVersion
    apply Sends.bind (Sends.ask True.intro)
    intro clock
    apply Sends.bind (Sends.ask True.intro)
    intro _
    apply Sends.bind (Sends.ask True.intro)
    intro _
    exact Sends.bind (records _) fun _ => Sends.pure _

theorem checkBaseline_vetted (safe : store.SafePolicies wire) (sandbox : Sandbox) {spec : SandboxSpec}
    {policy : SandboxPolicy} (vetted : spec.policy = none → policy.Safe) :
    Leaves (Store.SafePolicies wire) (checkBaseline sandbox spec policy) store ∧
      ∀ after, (checkBaseline sandbox spec policy).run Store.exec store = (.ok (), after) → policy.Safe := by
  unfold checkBaseline
  split
  · rename_i baseline _
    have checks : Sends (StoreOp.Vetted wire) (lift (validateStaticFieldsUnchanged baseline policy) >>= fun _ =>
        lift (validatePolicySafety policy) : Handler Blob Unit) := Sends.bind (Sends.lift _) fun _ => Sends.lift _
    refine ⟨leaves_of_vetted safe checks, fun after passed => ?_⟩
    cases unchanged : validateStaticFieldsUnchanged baseline policy with
    | error status =>
      rw [unchanged] at passed
      cases passed
    | ok value =>
      simp only [unchanged, run_lift_ok_bind, run_lift, Prod.mk.injEq] at passed
      exact validatePolicySafety_ok passed.1
  · rename_i baseless
    have good := vetted baseless
    refine ⟨leaves_of_vetted safe (Sends.bind (Sends.ask ?_) fun _ => Sends.orInternal _ _), fun _ _ => good⟩
    intro written given
    cases given
    exact good

theorem leaves_updateConfig (safe : store.SafePolicies wire) {request : UpdateConfigRequest}
    (vetted : ∀ sandbox spec policy, request.Backfills store sandbox spec policy →
      (ensureSandboxProcessIdentity policy).Safe) :
    Leaves (Store.SafePolicies wire) (handleUpdateConfig wire request) store := by
  have reads : ∀ scope, StoreOp.Vetted wire (.getSettings scope) := fun _ => True.intro
  have writes : ∀ scope name payload, StoreOp.Vetted wire (.putSettings scope name payload) :=
    fun _ _ _ => True.intro
  have globalSetting : Sends (StoreOp.Vetted wire) (updateGlobalSetting request) :=
    Sends.updateGlobalSetting reads writes request (fun _ => True.intro) fun _ _ => True.intro
  have sandboxSetting : ∀ sandbox, Sends (StoreOp.Vetted wire) (updateSandboxSetting request sandbox) :=
    Sends.updateSandboxSetting reads writes request
  apply Leaves.guard safe
  intro _
  apply Leaves.guard safe
  intro _
  split
  · split
    · exact leaves_updateGlobalPolicy safe request _
    · exact leaves_of_vetted safe globalSetting
  · rename_i local_
    apply Leaves.guard safe
    intro named
    apply Leaves.fetchSandbox safe
    intro sandbox found
    split
    · exact leaves_of_vetted safe (sandboxSetting sandbox)
    · rename_i alone
      apply Leaves.orElse safe
      intro policy submitted
      unfold Leaves loadGlobalSettings
      rw [run_loadSettingsRecord_bind]
      apply Leaves.guard safe
      intro unfrozen
      apply Leaves.orElse safe
      intro spec specified
      have checked := checkBaseline_vetted safe sandbox fun baseless =>
        vetted sandbox spec policy
          { sandboxScoped := by simpa using local_
            submitted := submitted
            alone := by simpa using alone
            named := by simpa using named
            found := found
            unfrozen := by simpa [Store.globalPolicy] using unfrozen
            specified := specified
            baseless := baseless }
      apply Leaves.bind checked.1
      intro _ after ran held
      exact leaves_of_vetted held (vetted_writeUpdate (checked.2 after ran) sandbox.id)

theorem call_vetted {call : StoredCall Blob} (safe : store.SafePolicies wire) (vetted : call.Vetted store) :
    (call.outcome wire lower store).SafePolicies wire := by
  cases call with
  | create sandbox => exact safe.exec sandbox.checked
  | submit chunk =>
    simp only [StoredCall.outcome]
    cases store.chunks.insert chunk with
    | none => exact safe
    | some chunks => exact safe.frame rfl rfl
  | update request => exact leaves_updateConfig safe vetted
  | approve request => exact leaves_approve safe request
  | approveAll request => exact leaves_approveAll safe request
  | reject request => exact leaves_reject safe request
  | edit request => exact leaves_of_vetted safe (vetted_edit request)
  | undo request => exact leaves_undo safe request
  | clear name => exact leaves_of_vetted safe (vetted_clear name)

/-! The backfill stores what it is given. -/

theorem run_backfill {request : UpdateConfigRequest} {sandbox : Sandbox} {spec : SandboxSpec}
    {policy : SandboxPolicy} (backfills : request.Backfills store sandbox spec policy) :
    ∃ filled, store.putSandbox { sandbox with
        spec := some { spec with policy := some (ensureSandboxProcessIdentity policy) } } = .ok filled ∧
      (handleUpdateConfig wire request).run Store.exec store =
        (writeUpdate wire sandbox.id (ensureSandboxProcessIdentity policy)).run Store.exec filled := by
  have present := Store.getSandbox_of_name backfills.found
  obtain ⟨filled, written⟩ : ∃ filled, store.putSandbox { sandbox with
      spec := some { spec with policy := some (ensureSandboxProcessIdentity policy) } } = .ok filled :=
    Store.putSandbox_present present
  have checks : (checkBaseline sandbox spec (ensureSandboxProcessIdentity policy)).run Store.exec store =
      (.ok (), filled) := by
    simp only [checkBaseline, backfills.baseless]
    rw [run_ask_bind]
    simp only [Store.exec, written, Store.write]
    rfl
  have open_ : (((store.getSettings .global).getD {}).settings.lookup policySettingKey).isNone = true := by
    simpa [Store.globalPolicy] using backfills.unfrozen
  refine ⟨filled, written, ?_⟩
  unfold handleUpdateConfig
  simp only [backfills.sandboxScoped, backfills.submitted, backfills.alone, Bool.not_true, Bool.and_false,
    Bool.not_false, Option.isSome_some, Bool.true_or, Bool.false_eq_true, if_false]
  rw [run_guard_bind_pass rfl, run_guard_bind_pass rfl, run_guard_bind_pass (by rw [backfills.named]; rfl),
    run_fetchSandbox_bind, backfills.found]
  simp only [updateSandboxPolicy, loadGlobalSettings, run_orElse_some_bind, run_loadSettingsRecord_bind]
  rw [run_guard_bind_pass open_, backfills.specified, run_orElse_some_bind, run_bind_of_ok checks]

theorem exec_sandboxes {op : StoreOp Blob} (quiet : op.quiet = true) :
    (Store.exec op store).2.sandboxes = store.sandboxes := by
  cases op with
  | putSandbox message => cases quiet
  | putSettings scope name payload =>
    simp only [Store.exec, Store.write]
    cases written : store.putSettings scope name payload with
    | ok result => exact (Store.putSettings_frame written).2
    | error text => rfl
  | putPolicyRevision owner version payload hash =>
    simp only [Store.exec, Store.write]
    cases written : store.putPolicyRevision owner version payload hash with
    | ok result =>
      rw [(Store.putPolicyRevision_ok written).2]
    | error text => rfl
  | _ => rfl

theorem backfill_safe {request : UpdateConfigRequest} {sandbox : Sandbox} {spec : SandboxSpec}
    {policy : SandboxPolicy} (backfills : request.Backfills store sandbox spec policy)
    (safe : ((handleUpdateConfig wire request).run Store.exec store).2.SafePolicies wire) :
    (ensureSandboxProcessIdentity policy).Safe := by
  have present := Store.getSandbox_of_name backfills.found
  obtain ⟨filled, written, ran⟩ := run_backfill backfills
  have stays : ∀ op (held : Store Blob), op.quiet = true → held.sandboxes = filled.sandboxes →
      (Store.exec op held).2.sandboxes = filled.sandboxes :=
    fun _ _ quiet same => (exec_sandboxes quiet).trans same
  have kept : Leaves (fun held => held.sandboxes = filled.sandboxes)
      (writeUpdate wire sandbox.id (ensureSandboxProcessIdentity policy)) filled :=
    Requests.run_preserves (I := storeInterface Blob) Store.exec (quiet_writeUpdate wire sandbox.id _).requests stays
      (Eq.refl filled.sandboxes)
  have recorded := (Store.getSandbox_putSandbox written present sandbox.id).1
  rw [if_pos rfl] at recorded
  obtain ⟨row, found, same⟩ := Option.map_eq_some_iff.mp recorded
  rw [ran] at safe
  apply safe.specs row
  · rw [kept]
    exact (Table.lookup_some.mp found).1
  · rw [same]
    rfl

/-! Runs. -/

theorem call_vetted_iff {call : StoredCall Blob} (safe : store.SafePolicies wire) :
    (call.outcome wire lower store).SafePolicies wire ↔ call.Vetted store := by
  refine ⟨fun kept => ?_, call_vetted safe⟩
  cases call with
  | update request =>
    intro sandbox spec policy backfills
    exact backfill_safe backfills kept
  | _ => exact True.intro

/-- From a store whose policies are safe, all policies stay safe along a run exactly when every backfill of
    the run is given a safe policy. -/
theorem safePolicies_run {calls : List (StoredCall Blob)} (safe : store.SafePolicies wire) :
    (∀ done, done <+: calls → (StoredCall.outcomes wire lower store done).SafePolicies wire) ↔
      StoredCall.AllVetted wire lower store calls := by
  induction calls generalizing store with
  | nil =>
    refine ⟨fun _ => True.intro, fun _ done started => ?_⟩
    rw [List.prefix_nil.mp started]
    exact safe
  | cons call rest ih =>
    constructor
    · intro kept
      have next : (call.outcome wire lower store).SafePolicies wire := kept [call] ⟨rest, rfl⟩
      refine ⟨(call_vetted_iff safe).mp next, (ih next).mp fun done started => ?_⟩
      exact kept (call :: done) (List.cons_prefix_cons.mpr ⟨rfl, started⟩)
    · intro vetted done started
      have next : (call.outcome wire lower store).SafePolicies wire := (call_vetted_iff safe).mpr vetted.1
      cases done with
      | nil => exact safe
      | cons first done =>
        obtain ⟨same, later⟩ := List.cons_prefix_cons.mp started
        subst same
        exact (ih next).mpr vetted.2 done later

theorem Store.safePolicies_empty : ({} : Store Blob).SafePolicies wire :=
  ⟨fun _ member => absurd member List.not_mem_nil, fun _ member => absurd member List.not_mem_nil⟩

theorem stored_policies_safe_iff (wire : Wire Blob) (lower : String → String) (calls : List (StoredCall Blob)) :
    (∀ done, done <+: calls → (StoredCall.outcomes wire lower {} done).SafePolicies wire) ↔
      StoredCall.AllVetted wire lower {} calls :=
  safePolicies_run Store.safePolicies_empty

section Example

def blankSandbox : NewSandbox where
  message := { id := "sb", name := "beta", spec := some {} }
  checked := fun _ given => nomatch given

def rootPolicy : SandboxPolicy := { process := some { runAsUser := "root", runAsGroup := "root" } }

/-- A sandbox without a policy, and a first update that asks to run as root. -/
def rootRun : List (StoredCall Message) :=
  [.create blankSandbox, .update { name := "beta", policy := some rootPolicy }]

theorem rootRun_stored :
    ¬ ∀ done, done <+: rootRun →
      (StoredCall.outcomes plainWire String.toLower {} done).SafePolicies plainWire := by
  intro safe
  have stored : (StoredCall.outcomes plainWire String.toLower {} rootRun).policies.rows.map
      PolicyRecord.policyPayload = [.policy rootPolicy] := rfl
  have refused : ¬ validateSandboxPolicy rootPolicy = some [] := by decide +kernel
  obtain ⟨record, member, payload⟩ := List.mem_map.mp (stored ▸ List.mem_singleton_self _)
  obtain ⟨policy, encoded, good⟩ := (safe rootRun (List.prefix_refl _)).revisions record member
  rw [payload] at encoded
  cases encoded
  exact refused good

end Example

end OpenShell.Server
