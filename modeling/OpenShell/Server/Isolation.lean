import OpenShell.Server.DraftRuns

namespace OpenShell.Server

open OpenShell.Policy Effects Effects.Fallible

variable {Blob : Type} (wire : Wire Blob) (lower : String → String)

inductive DraftCall where
  | approve (request : ChunkRequest)
  | reject (request : ChunkRequest)
  | edit (request : EditDraftChunkRequest)
  | undo (request : ChunkRequest)

namespace DraftCall

def name : DraftCall → String
  | approve request | reject request | undo request => request.name
  | edit request => request.name

def chunkId : DraftCall → String
  | approve request | reject request | undo request => request.chunkId
  | edit request => request.chunkId

def handle : DraftCall → Handler Blob Unit
  | approve request => do
    let _ ← handleApproveDraftChunk wire lower request
    pure ()
  | reject request => handleRejectDraftChunk wire request
  | edit request => handleEditDraftChunk wire request
  | undo request => do
    let _ ← handleUndoDraftChunk wire request
    pure ()

/-- The handler's own checks pass: the request is complete, what it names exists, the chunk has a
    status the call may start from, no global policy stands in the way of an approval or a
    revocation, and the messages that are read decode. -/
def Ready (store : Store Blob) : DraftCall → Prop
  | approve request => ∃ sandbox chunk rule policy,
      ApproveReady wire store request sandbox chunk rule policy
  | reject request => (∃ sandbox chunk, RejectPendingReady store request sandbox chunk) ∨
      ∃ sandbox chunk policy, RejectApprovedReady wire store request sandbox chunk policy
  | edit request => ∃ sandbox chunk rule, EditReady store request sandbox chunk rule
  | undo request => ∃ sandbox chunk policy, UndoReady wire store request sandbox chunk policy

def Foreign (store : Store Blob) (call : DraftCall) : Prop :=
  ∃ sandbox chunk, store.getSandboxByName call.name = some sandbox ∧
    store.chunks.lookup call.chunkId = some chunk ∧ chunk.sandboxId ≠ sandbox.id

/-- A call on another sandbox's chunk is an error and changes neither revisions nor chunks. -/
def Isolated (store : Store Blob) (call : DraftCall) : Prop :=
  call.Foreign store → ∃ status after,
    (call.handle wire lower).run Store.exec store = (.error status, after) ∧
      after.policies = store.policies ∧ after.chunks = store.chunks

variable {wire} {store : Store Blob} {call : DraftCall}

theorem succeeds (ready : call.Ready wire store) :
    ∃ after, (call.handle wire lower).run Store.exec store = (.ok (), after) := by
  cases call with
  | approve request =>
    obtain ⟨sandbox, chunk, rule, policy, approvable⟩ := ready
    exact ⟨_, run_bind_of_ok (run_approve approvable) _⟩
  | reject request =>
    rcases ready with ⟨sandbox, chunk, pending⟩ | ⟨sandbox, chunk, policy, approved⟩
    · exact ⟨_, run_reject_pending pending⟩
    · exact ⟨_, run_reject_approved approved⟩
  | edit request =>
    obtain ⟨sandbox, chunk, rule, editable⟩ := ready
    exact ⟨_, run_edit editable⟩
  | undo request =>
    obtain ⟨sandbox, chunk, policy, undoable⟩ := ready
    exact ⟨_, run_bind_of_ok (run_undo undoable) _⟩

variable {lower}

theorem refuses (unready : ¬ call.Ready wire store) : Refuses (call.handle wire lower) store := by
  cases call with
  | approve request =>
    apply Refuses.bind
    exact approve_refused unready
  | reject request =>
    apply reject_refused
    · exact fun pending => unready (Or.inl pending)
    · exact fun approved => unready (Or.inr approved)
  | edit request => exact edit_refused unready
  | undo request =>
    apply Refuses.bind
    exact undo_refused unready

/-- No handler compares the chunk's sandbox with the one it was asked about: a foreign chunk is
    refused exactly when the call would fail on a chunk of its own. -/
theorem isolated_iff (store : Store Blob) (call : DraftCall) :
    call.Isolated wire lower store ↔ (call.Foreign store → ¬ call.Ready wire store) := by
  constructor
  · intro isolated foreign ready
    obtain ⟨status, after, failed, _⟩ := isolated foreign
    obtain ⟨result, succeeded⟩ := succeeds lower ready
    rw [failed] at succeeded
    cases succeeded
  · intro unready foreign
    obtain ⟨status, failed⟩ := refuses (unready foreign)
    exact ⟨status, store, failed, rfl, rfl⟩

end DraftCall

def betaChunk : DraftChunkRecord Message :=
  { id := "c1", sandboxId := "sb", status := .pending, ruleName := "web",
    proposedRule := .rule { name := "web" }, host := "b.example", port := 443, binary := "/usr/bin/git" }

/-- Two sandboxes; the only chunk belongs to the second. -/
def twoSandboxes : Store Message :=
  { sandboxes := ⟨[⟨"alpha", { id := "sa", name := "alpha" }⟩,
      ⟨"beta", { id := "sb", name := "beta" }⟩], by decide⟩,
    chunks := ⟨[betaChunk], by decide⟩ }

theorem not_isolated :
    ¬ (DraftCall.approve ⟨"alpha", "c1"⟩).Isolated plainWire String.toLower twoSandboxes := by
  intro isolated
  have foreign : (DraftCall.approve ⟨"alpha", "c1"⟩).Foreign twoSandboxes :=
    ⟨{ id := "sa", name := "alpha" }, betaChunk, rfl, rfl, by decide⟩
  obtain ⟨status, after, failed, _⟩ := isolated foreign
  have resolved : Resolved twoSandboxes "alpha" "c1" { id := "sa", name := "alpha" } betaChunk :=
    ⟨by decide, by decide, rfl, rfl⟩
  have ready : (DraftCall.approve ⟨"alpha", "c1"⟩).Ready plainWire twoSandboxes :=
    ⟨_, betaChunk, _, _, resolved, by decide, by decide, rfl, rfl⟩
  obtain ⟨result, succeeded⟩ := DraftCall.succeeds String.toLower ready
  rw [failed] at succeeded
  cases succeeded

end OpenShell.Server
