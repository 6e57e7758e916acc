import OpenShell.Server.DraftRuns
import OpenShell.Server.UpdateConfig

namespace OpenShell.Server

open OpenShell.Policy Effects Effects.Fallible

variable {Blob : Type} (wire : Wire Blob) (lower : String → String)

inductive PolicyCall where
  | approve (request : ChunkRequest)
  | approveAll (request : ApproveAllDraftChunksRequest)
  | reject (request : ChunkRequest)
  | edit (request : EditDraftChunkRequest)
  | undo (request : ChunkRequest)
  | clear (name : String)
  | update (submitted : SandboxPolicyUpdate)

namespace PolicyCall

def outcome (store : Store Blob) : PolicyCall → Store Blob
  | approve request => ((handleApproveDraftChunk wire lower request).run Store.exec store).2
  | approveAll request => ((handleApproveAllDraftChunks wire lower request).run Store.exec store).2
  | reject request => ((handleRejectDraftChunk wire request).run Store.exec store).2
  | edit request => ((handleEditDraftChunk wire request).run Store.exec store).2
  | undo request => ((handleUndoDraftChunk wire request).run Store.exec store).2
  | clear name => ((handleClearDraftChunks name).run Store.exec store).2
  | update submitted => ((handleUpdateConfig wire submitted.request).run Store.exec store).2

end PolicyCall

def NoNewRevision (before after : Store Blob) : Prop :=
  ∀ record ∈ after.policies, ∃ old ∈ before.policies, old.key = record.key

def OnlyChunksWritten (before after : Store Blob) : Prop :=
  after = { before with chunks := after.chunks }

/-- Under a global policy a call creates no revision and writes nothing but chunk rows. -/
def PolicyCall.Frozen (store : Store Blob) (call : PolicyCall) : Prop :=
  store.globalPolicy = true →
    NoNewRevision store (call.outcome wire lower store) ∧
      OnlyChunksWritten store (call.outcome wire lower store)

theorem noNewRevision_of_onlyChunks {before after : Store Blob}
    (written : OnlyChunksWritten before after) : NoNewRevision before after := by
  intro record member
  rw [written] at member
  exact ⟨record, member, rfl⟩

theorem onlyChunks_of_refuses {α : Type} {program : Handler Blob α} {store : Store Blob}
    (refused : Refuses program store) : OnlyChunksWritten store (program.run Store.exec store).2 := by
  obtain ⟨status, failed⟩ := refused
  rw [failed]
  rfl

variable {wire lower} {store : Store Blob}

theorem approve_frozen (active : store.globalPolicy = true) (request : ChunkRequest) :
    Refuses (handleApproveDraftChunk wire lower request) store := by
  apply approve_refused
  intro ⟨_, _, _, _, ready⟩
  rw [ready.unfrozen] at active
  cases active

theorem approveAll_frozen (active : store.globalPolicy = true)
    (request : ApproveAllDraftChunksRequest) :
    Refuses (handleApproveAllDraftChunks wire lower request) store := by
  apply Refuses.guard
  intro _
  apply Refuses.noGlobalPolicy
  intro unfrozen
  rw [unfrozen] at active
  cases active

theorem reject_frozen (active : store.globalPolicy = true) (request : ChunkRequest) :
    OnlyChunksWritten store ((handleRejectDraftChunk wire request).run Store.exec store).2 := by
  by_cases pending : ∃ sandbox chunk, RejectPendingReady store request sandbox chunk
  · obtain ⟨sandbox, chunk, ready⟩ := pending
    rw [run_reject_pending ready]
    rfl
  · apply onlyChunks_of_refuses
    apply reject_refused pending
    intro ⟨_, _, _, ready⟩
    rw [ready.unfrozen] at active
    cases active

theorem edit_onlyChunks (request : EditDraftChunkRequest) :
    OnlyChunksWritten store ((handleEditDraftChunk wire request).run Store.exec store).2 := by
  by_cases editable : ∃ sandbox chunk rule, EditReady store request sandbox chunk rule
  · obtain ⟨sandbox, chunk, rule, ready⟩ := editable
    rw [run_edit ready]
    rfl
  · exact onlyChunks_of_refuses (edit_refused editable)

theorem clear_onlyChunks (name : String) :
    OnlyChunksWritten store ((handleClearDraftChunks name).run Store.exec store).2 := by
  unfold handleClearDraftChunks
  rw [run_guard_bind]
  cases name.isEmpty with
  | true => rfl
  | false =>
    simp only [Bool.not_false, if_true, run_fetchSandbox_bind]
    cases store.getSandboxByName name with
    | none => rfl
    | some sandbox => rfl

theorem updateSandboxPolicy_frozen (active : store.globalPolicy = true) (sandbox : Sandbox)
    (submitted : Option SandboxPolicy) : Refuses (updateSandboxPolicy wire sandbox submitted) store := by
  apply Refuses.orElse
  intro given _
  unfold Refuses loadGlobalSettings
  rw [run_loadSettingsRecord_bind]
  apply Refuses.guard
  intro unfrozen
  unfold Store.globalPolicy at active
  rw [Option.isNone_iff_eq_none.mp unfrozen] at active
  cases active

theorem update_frozen (active : store.globalPolicy = true) (update : SandboxPolicyUpdate) :
    Refuses (handleUpdateConfig wire update.request) store := by
  apply Refuses.guard
  intro single
  apply Refuses.guard
  intro _
  have noSetting : (!update.request.key.isEmpty) = false := by
    simpa [update.carriesPolicy] using single
  rw [update.sandboxScoped]
  simp only [Bool.false_eq_true, if_false, noSetting]
  apply Refuses.guard
  intro _
  apply Refuses.fetchSandbox
  intro sandbox _
  exact updateSandboxPolicy_frozen active sandbox update.request.policy

theorem undo_creates {request : ChunkRequest} {sandbox : Sandbox} {chunk : DraftChunkRecord Blob}
    {policy : SandboxPolicy} (ready : UndoReady wire store request sandbox chunk policy) :
    ¬ NoNewRevision store ((handleUndoDraftChunk wire request).run Store.exec store).2 := by
  intro unchanged
  rw [run_undo ready] at unchanged
  have added : Store.newRevision sandbox.id (store.latestVersion sandbox.id + 1)
      (wire.encodePolicy (removeChunk policy chunk))
      (deterministicPolicyHash wire (removeChunk policy chunk)) ∈
      ((store.withRemoved wire sandbox.id chunk policy).updateDraftChunkStatus
        request.chunkId .pending none).policies :=
    Store.mem_appendRevision.mpr (Or.inl rfl)
  obtain ⟨old, member, same⟩ := unchanged _ added
  have owner : old.sandboxId = sandbox.id := congrArg Prod.fst same
  have version : old.version = store.latestVersion sandbox.id + 1 := congrArg Prod.snd same
  have bound := Store.version_le_latest member
  rw [owner] at bound
  omega

/-- The undo is the one call that does not ask for the global policy. -/
theorem frozen_iff (store : Store Blob) (call : PolicyCall) :
    call.Frozen wire lower store ↔ (store.globalPolicy = true → ∀ request, call = .undo request →
      ¬ ∃ sandbox chunk policy, UndoReady wire store request sandbox chunk policy) := by
  constructor
  · intro frozen active request same
    subst same
    intro ⟨sandbox, chunk, policy, ready⟩
    exact undo_creates ready (frozen active).1
  · intro blocked active
    suffices written : OnlyChunksWritten store (call.outcome wire lower store) from
      ⟨noNewRevision_of_onlyChunks written, written⟩
    cases call with
    | approve request => exact onlyChunks_of_refuses (approve_frozen active request)
    | approveAll request => exact onlyChunks_of_refuses (approveAll_frozen active request)
    | reject request => exact reject_frozen active request
    | edit request => exact edit_onlyChunks request
    | undo request => exact onlyChunks_of_refuses (undo_refused (blocked active request rfl))
    | clear name => exact clear_onlyChunks name
    | update submitted => exact onlyChunks_of_refuses (update_frozen active submitted)

section Example

def approvedChunk : DraftChunkRecord Message :=
  { id := "c1", sandboxId := "sb", status := .approved, ruleName := "web",
    proposedRule := .rule { name := "web" }, host := "b.example", port := 443, binary := "/usr/bin/git" }

/-- A sandbox with one revision and an approved chunk, under a global policy. -/
def frozenStore : Store Message :=
  { sandboxes := ⟨[⟨"beta", { id := "sb", name := "beta" }⟩], by decide⟩,
    settings := ⟨[⟨.global, "global", { settings := AList.singleton "policy" (.bytes "") }⟩], by decide⟩,
    policies := ⟨[Store.newRevision "sb" 1 (.policy {}) ""], by decide⟩,
    chunks := ⟨[approvedChunk], by decide⟩ }

theorem undo_not_frozen :
    ¬ (PolicyCall.undo ⟨"beta", "c1"⟩).Frozen plainWire String.toLower frozenStore := by
  intro frozen
  have resolved : Resolved frozenStore "beta" "c1" { id := "sb", name := "beta" } approvedChunk :=
    ⟨by decide, by decide, rfl, rfl⟩
  have ready : UndoReady plainWire frozenStore ⟨"beta", "c1"⟩ { id := "sb", name := "beta" }
      approvedChunk {} := ⟨resolved, rfl, _, rfl, rfl⟩
  exact undo_creates ready (frozen (by decide)).1

end Example

end OpenShell.Server
