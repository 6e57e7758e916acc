import OpenShell.Server.Revisions
import OpenShell.Server.Rules

namespace OpenShell.Server

open OpenShell.Policy Effects Effects.Fallible

variable {Blob : Type} (wire : Wire Blob) (lower : String → String)

/-! What each draft handler needs in order to go through, and what it then does. In every other state
it answers with an error and leaves the store as it was. -/

/-- The part of every request that names an existing sandbox and an existing chunk. -/
structure Resolved (store : Store Blob) (name chunkId : String) (sandbox : Sandbox)
    (chunk : DraftChunkRecord Blob) : Prop where
  named : name.isEmpty = false
  identified : chunkId.isEmpty = false
  sandboxFound : store.getSandboxByName name = some sandbox
  chunkFound : store.chunks.lookup chunkId = some chunk

structure ApproveReady (store : Store Blob) (request : ChunkRequest) (sandbox : Sandbox)
    (chunk : DraftChunkRecord Blob) (rule : NetworkPolicyRule) (policy : SandboxPolicy) : Prop where
  resolved : Resolved store request.name request.chunkId sandbox chunk
  unfrozen : store.globalPolicy = false
  status : chunk.status ≠ .approved
  mergeable : Mergeable wire store sandbox.id chunk rule policy

structure UndoReady (store : Store Blob) (request : ChunkRequest) (sandbox : Sandbox)
    (chunk : DraftChunkRecord Blob) (policy : SandboxPolicy) : Prop where
  resolved : Resolved store request.name request.chunkId sandbox chunk
  status : chunk.status = .approved
  removable : Removable wire store sandbox.id policy

structure RejectPendingReady (store : Store Blob) (request : ChunkRequest) (sandbox : Sandbox)
    (chunk : DraftChunkRecord Blob) : Prop where
  resolved : Resolved store request.name request.chunkId sandbox chunk
  status : chunk.status = .pending

structure RejectApprovedReady (store : Store Blob) (request : ChunkRequest) (sandbox : Sandbox)
    (chunk : DraftChunkRecord Blob) (policy : SandboxPolicy) : Prop where
  resolved : Resolved store request.name request.chunkId sandbox chunk
  unfrozen : store.globalPolicy = false
  status : chunk.status = .approved
  removable : Removable wire store sandbox.id policy

structure EditReady (store : Store Blob) (request : EditDraftChunkRequest) (sandbox : Sandbox)
    (chunk : DraftChunkRecord Blob) (rule : NetworkPolicyRule) : Prop where
  resolved : Resolved store request.name request.chunkId sandbox chunk
  proposed : request.proposedRule = some rule
  status : chunk.status = .pending

def Store.withMerged (store : Store Blob) (sandboxId : String) (chunk : DraftChunkRecord Blob)
    (rule : NetworkPolicyRule) (policy : SandboxPolicy) : Store Blob :=
  store.appendRevision sandboxId (wire.encodePolicy (mergeChunk lower policy chunk rule))
    (deterministicPolicyHash wire (mergeChunk lower policy chunk rule))

def Store.withRemoved (store : Store Blob) (sandboxId : String) (chunk : DraftChunkRecord Blob)
    (policy : SandboxPolicy) : Store Blob :=
  store.appendRevision sandboxId (wire.encodePolicy (removeChunk policy chunk))
    (deterministicPolicyHash wire (removeChunk policy chunk))

theorem Store.appendRevision_nowMs (store : Store Blob) (sandboxId : String) (payload : Blob)
    (hash : String) : (store.appendRevision sandboxId payload hash).nowMs = store.nowMs := by
  rw [Store.appendRevision_frame]

variable {wire lower} {store : Store Blob} {request : ChunkRequest} {sandbox : Sandbox}
  {chunk : DraftChunkRecord Blob} {rule : NetworkPolicyRule} {policy : SandboxPolicy}

theorem run_approve (ready : ApproveReady wire store request sandbox chunk rule policy) :
    (handleApproveDraftChunk wire lower request).run Store.exec store =
      (.ok ⟨versionNumber (store.latestVersion sandbox.id + 1),
          deterministicPolicyHash wire (mergeChunk lower policy chunk rule)⟩,
        (store.withMerged wire lower sandbox.id chunk rule policy).updateDraftChunkStatus
          request.chunkId .approved (some store.nowMs)) := by
  obtain ⟨⟨named, identified, sandboxFound, chunkFound⟩, unfrozen, status, mergeable⟩ := ready
  have admitted : (chunk.status = .pending || chunk.status = .rejected) = true := by
    cases decided : chunk.status with
    | pending => rfl
    | rejected => rfl
    | approved => exact absurd decided status
  unfold handleApproveDraftChunk
  rw [run_guard_bind_pass (by rw [named]; rfl), run_guard_bind_pass (by rw [identified]; rfl),
    run_requireNoGlobalPolicy_bind, unfrozen]
  simp only [Bool.false_eq_true, if_false, run_fetchSandbox_bind, sandboxFound, run_fetchChunk_bind,
    chunkFound]
  rw [run_guard_bind_pass admitted, run_bind_of_ok (run_mergeChunkIntoPolicy wire lower mergeable)]
  simp only [run_decisionTime_bind, run_setChunkStatus_bind, run_pure, Store.appendRevision_nowMs,
    Store.withMerged]

theorem run_undo (ready : UndoReady wire store request sandbox chunk policy) :
    (handleUndoDraftChunk wire request).run Store.exec store =
      (.ok ⟨versionNumber (store.latestVersion sandbox.id + 1),
          deterministicPolicyHash wire (removeChunk policy chunk)⟩,
        (store.withRemoved wire sandbox.id chunk policy).updateDraftChunkStatus
          request.chunkId .pending none) := by
  obtain ⟨⟨named, identified, sandboxFound, chunkFound⟩, status, removable⟩ := ready
  unfold handleUndoDraftChunk
  rw [run_guard_bind_pass (by rw [named]; rfl), run_guard_bind_pass (by rw [identified]; rfl)]
  simp only [run_fetchSandbox_bind, sandboxFound, run_fetchChunk_bind, chunkFound]
  rw [run_guard_bind_pass (by rw [status]; rfl),
    run_bind_of_ok (run_removeChunkFromPolicy wire removable)]
  simp only [run_setChunkStatus_bind, run_pure, Store.withRemoved]

theorem run_reject_pending (ready : RejectPendingReady store request sandbox chunk) :
    (handleRejectDraftChunk wire request).run Store.exec store =
      (.ok (), store.updateDraftChunkStatus request.chunkId .rejected (some store.nowMs)) := by
  obtain ⟨⟨named, identified, sandboxFound, chunkFound⟩, status⟩ := ready
  have skipped : revokeApproved wire sandbox.id chunk = pure () := by
    simp only [revokeApproved, status, reduceCtorEq, if_false]
  unfold handleRejectDraftChunk
  rw [run_guard_bind_pass (by rw [named]; rfl), run_guard_bind_pass (by rw [identified]; rfl)]
  simp only [run_fetchSandbox_bind, sandboxFound, run_fetchChunk_bind, chunkFound]
  rw [run_guard_bind_pass (by rw [status]; rfl), skipped, run_bind_of_ok rfl]
  simp only [run_decisionTime_bind, run_setChunkStatus_bind, run_pure]

theorem run_revokeApproved (unfrozen : store.globalPolicy = false) (status : chunk.status = .approved)
    {sandboxId : String} (removable : Removable wire store sandboxId policy) :
    (revokeApproved wire sandboxId chunk).run Store.exec store =
      (.ok (), store.withRemoved wire sandboxId chunk policy) := by
  unfold revokeApproved
  rw [if_pos status, run_requireNoGlobalPolicy_bind, unfrozen]
  simp only [Bool.false_eq_true, if_false]
  rw [run_bind_of_ok (run_removeChunkFromPolicy wire removable)]
  rfl

theorem run_reject_approved (ready : RejectApprovedReady wire store request sandbox chunk policy) :
    (handleRejectDraftChunk wire request).run Store.exec store =
      (.ok (), (store.withRemoved wire sandbox.id chunk policy).updateDraftChunkStatus
        request.chunkId .rejected (some store.nowMs)) := by
  obtain ⟨⟨named, identified, sandboxFound, chunkFound⟩, unfrozen, status, removable⟩ := ready
  unfold handleRejectDraftChunk
  rw [run_guard_bind_pass (by rw [named]; rfl), run_guard_bind_pass (by rw [identified]; rfl)]
  simp only [run_fetchSandbox_bind, sandboxFound, run_fetchChunk_bind, chunkFound]
  rw [run_guard_bind_pass (by rw [status]; rfl), run_bind_of_ok (run_revokeApproved unfrozen status removable)]
  simp only [run_decisionTime_bind, run_setChunkStatus_bind, run_pure, Store.withRemoved,
    Store.appendRevision_nowMs]

theorem run_edit {request : EditDraftChunkRequest} (ready : EditReady store request sandbox chunk rule) :
    (handleEditDraftChunk wire request).run Store.exec store =
      (.ok (), store.updateDraftChunkRule request.chunkId (wire.encodeRule rule)) := by
  obtain ⟨⟨named, identified, sandboxFound, chunkFound⟩, proposed, status⟩ := ready
  unfold handleEditDraftChunk
  rw [run_guard_bind_pass (by rw [named]; rfl), run_guard_bind_pass (by rw [identified]; rfl)]
  simp only [proposed, run_orElse_some_bind, run_fetchSandbox_bind, sandboxFound, run_fetchChunk_bind,
    chunkFound]
  rw [run_guard_bind_pass (by rw [status]; rfl)]
  simp only [run_ask_bind, Store.exec, run_orInternal_ok_bind, run_pure]

theorem Refuses.merge {sandboxId : String}
    (unready : ∀ rule policy, ¬ Mergeable wire store sandboxId chunk rule policy) :
    Refuses (mergeChunkIntoPolicy wire lower sandboxId chunk) store :=
  run_mergeChunkIntoPolicy_error wire lower fun ⟨rule, policy, ready⟩ => unready rule policy ready

theorem Refuses.remove {sandboxId : String}
    (unready : ∀ policy, ¬ Removable wire store sandboxId policy) :
    Refuses (removeChunkFromPolicy wire sandboxId chunk) store :=
  run_removeChunkFromPolicy_error wire fun ⟨policy, ready⟩ => unready policy ready

theorem approve_refused
    (unready : ¬ ∃ sandbox chunk rule policy, ApproveReady wire store request sandbox chunk rule policy) :
    Refuses (handleApproveDraftChunk wire lower request) store := by
  apply Refuses.guard
  intro named
  apply Refuses.guard
  intro identified
  apply Refuses.noGlobalPolicy
  intro unfrozen
  apply Refuses.fetchSandbox
  intro sandbox sandboxFound
  apply Refuses.fetchChunk
  intro chunk chunkFound
  apply Refuses.guard
  intro admitted
  apply Refuses.bind
  apply Refuses.merge
  intro rule policy mergeable
  have resolved : Resolved store request.name request.chunkId sandbox chunk :=
    ⟨by simpa using named, by simpa using identified, sandboxFound, chunkFound⟩
  have status : chunk.status ≠ .approved := by
    intro approved
    simp [approved] at admitted
  exact unready ⟨sandbox, chunk, rule, policy, resolved, unfrozen, status, mergeable⟩

theorem undo_refused
    (unready : ¬ ∃ sandbox chunk policy, UndoReady wire store request sandbox chunk policy) :
    Refuses (handleUndoDraftChunk wire request) store := by
  apply Refuses.guard
  intro named
  apply Refuses.guard
  intro identified
  apply Refuses.fetchSandbox
  intro sandbox sandboxFound
  apply Refuses.fetchChunk
  intro chunk chunkFound
  apply Refuses.guard
  intro admitted
  apply Refuses.bind
  apply Refuses.remove
  intro policy removable
  have resolved : Resolved store request.name request.chunkId sandbox chunk :=
    ⟨by simpa using named, by simpa using identified, sandboxFound, chunkFound⟩
  exact unready ⟨sandbox, chunk, policy, resolved, by simpa using admitted, removable⟩

theorem reject_refused
    (notPending : ¬ ∃ sandbox chunk, RejectPendingReady store request sandbox chunk)
    (notApproved : ¬ ∃ sandbox chunk policy, RejectApprovedReady wire store request sandbox chunk policy) :
    Refuses (handleRejectDraftChunk wire request) store := by
  apply Refuses.guard
  intro named
  apply Refuses.guard
  intro identified
  apply Refuses.fetchSandbox
  intro sandbox sandboxFound
  apply Refuses.fetchChunk
  intro chunk chunkFound
  apply Refuses.guard
  intro admitted
  apply Refuses.bind
  have resolved : Resolved store request.name request.chunkId sandbox chunk :=
    ⟨by simpa using named, by simpa using identified, sandboxFound, chunkFound⟩
  have status : chunk.status = .approved := by
    cases decided : chunk.status with
    | approved => rfl
    | pending => exact absurd ⟨sandbox, chunk, resolved, decided⟩ notPending
    | rejected => simp [decided] at admitted
  unfold revokeApproved
  rw [if_pos status]
  apply Refuses.noGlobalPolicy
  intro unfrozen
  apply Refuses.bind
  apply Refuses.remove
  intro policy removable
  exact notApproved ⟨sandbox, chunk, policy, resolved, unfrozen, status, removable⟩

theorem edit_refused {request : EditDraftChunkRequest}
    (unready : ¬ ∃ sandbox chunk rule, EditReady store request sandbox chunk rule) :
    Refuses (handleEditDraftChunk wire request) store := by
  apply Refuses.guard
  intro named
  apply Refuses.guard
  intro identified
  apply Refuses.orElse
  intro rule proposed
  apply Refuses.fetchSandbox
  intro sandbox sandboxFound
  apply Refuses.fetchChunk
  intro chunk chunkFound
  have resolved : Resolved store request.name request.chunkId sandbox chunk :=
    ⟨by simpa using named, by simpa using identified, sandboxFound, chunkFound⟩
  apply Refuses.guard
  intro admitted
  exact absurd ⟨sandbox, chunk, rule, resolved, proposed, by simpa using admitted⟩ unready

end OpenShell.Server
