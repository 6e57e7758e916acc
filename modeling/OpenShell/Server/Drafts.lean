import OpenShell.Server.Settings

namespace OpenShell.Server

open OpenShell.Policy Effects Effects.Fallible

variable {Blob : Type}

/-- `u32::try_from(version).unwrap_or(0)`. -/
def versionNumber (version : Nat) : UInt32 := if version < 2 ^ 32 then UInt32.ofNat version else 0

structure ChunkRequest where
  name : String
  chunkId : String

structure EditDraftChunkRequest where
  name : String
  chunkId : String
  proposedRule : Option NetworkPolicyRule := none

structure ApproveAllDraftChunksRequest where
  name : String
  includeSecurityFlagged : Bool := false

structure PolicyVersionResponse where
  policyVersion : UInt32
  policyHash : String
deriving DecidableEq

structure ApproveAllDraftChunksResponse where
  policyVersion : UInt32 := 0
  policyHash : String := ""
  chunksApproved : Nat := 0
  chunksSkipped : Nat := 0
deriving DecidableEq

def nameRequired : Status := ⟨.invalidArgument, "name is required"⟩

def chunkIdRequired : Status := ⟨.invalidArgument, "chunk_id is required"⟩

def sandboxNotFound : Status := ⟨.notFound, "sandbox not found"⟩

def chunkNotFound : Status := ⟨.notFound, "chunk not found"⟩

def unexpectedStatus (status : ChunkStatus) (expected : String) : Status :=
  ⟨.failedPrecondition, "chunk status is '" ++ status.text ++ "', expected " ++ expected⟩

def fetchSandbox (name : String) : Handler Blob Sandbox := do
  let found ← orInternal "fetch sandbox failed" (← ask (.getSandboxByName name))
  orElse sandboxNotFound found

def fetchChunk (chunkId : String) : Handler Blob (DraftChunkRecord Blob) := do
  let found ← orInternal "fetch chunk failed" (← ask (.getDraftChunk chunkId))
  orElse chunkNotFound found

def setChunkStatus (chunkId : String) (status : ChunkStatus) (decidedAtMs : Option Int) :
    Handler Blob Bool := do
  orInternal "update chunk status failed" (← ask (.updateDraftChunkStatus chunkId status decidedAtMs))

def decisionTime : Handler Blob Int := do
  orInternal "timestamp error" (← ask .currentTimeMs)

section Run

variable {β : Type}

@[simp] theorem run_fetchSandbox_bind (name : String) (next : Sandbox → Handler Blob β)
    (store : Store Blob) :
    (fetchSandbox name >>= next).run Store.exec store =
      match store.getSandboxByName name with
      | some sandbox => (next sandbox).run Store.exec store
      | none => (.error sandboxNotFound, store) := by
  cases found : store.getSandboxByName name with
  | some sandbox =>
    have fetched : (fetchSandbox name).run Store.exec store = (.ok sandbox, store) := by
      simp only [fetchSandbox, run_ask_bind, Store.exec, run_orInternal_ok_bind, found]
      rfl
    exact run_bind_of_ok fetched next
  | none =>
    have missing : (fetchSandbox name).run Store.exec store = (.error sandboxNotFound, store) := by
      simp only [fetchSandbox, run_ask_bind, Store.exec, run_orInternal_ok_bind, found]
      rfl
    exact run_bind_of_error missing next

@[simp] theorem run_fetchChunk_bind (chunkId : String) (next : DraftChunkRecord Blob → Handler Blob β)
    (store : Store Blob) :
    (fetchChunk chunkId >>= next).run Store.exec store =
      match store.chunks.lookup chunkId with
      | some chunk => (next chunk).run Store.exec store
      | none => (.error chunkNotFound, store) := by
  cases found : store.chunks.lookup chunkId with
  | some chunk =>
    have fetched : (fetchChunk chunkId).run Store.exec store = (.ok chunk, store) := by
      simp only [fetchChunk, run_ask_bind, Store.exec, run_orInternal_ok_bind, found]
      rfl
    exact run_bind_of_ok fetched next
  | none =>
    have missing : (fetchChunk chunkId).run Store.exec store = (.error chunkNotFound, store) := by
      simp only [fetchChunk, run_ask_bind, Store.exec, run_orInternal_ok_bind, found]
      rfl
    exact run_bind_of_error missing next

@[simp] theorem run_setChunkStatus_bind (chunkId : String) (status : ChunkStatus)
    (decidedAtMs : Option Int) (next : Bool → Handler Blob β) (store : Store Blob) :
    (setChunkStatus chunkId status decidedAtMs >>= next).run Store.exec store =
      (next (store.chunks.lookup chunkId).isSome).run Store.exec
        (store.updateDraftChunkStatus chunkId status decidedAtMs) := by
  have written : (setChunkStatus chunkId status decidedAtMs).run Store.exec store =
      (.ok (store.chunks.lookup chunkId).isSome,
        store.updateDraftChunkStatus chunkId status decidedAtMs) := rfl
  exact run_bind_of_ok written next

@[simp] theorem run_decisionTime_bind (next : Int → Handler Blob β) (store : Store Blob) :
    (decisionTime >>= next).run Store.exec store = (next store.nowMs).run Store.exec store := by
  have read : (decisionTime : Handler Blob Int).run Store.exec store = (.ok store.nowMs, store) := rfl
  exact run_bind_of_ok read next

end Run

variable (wire : Wire Blob) (lower : String → String)

def handleApproveDraftChunk (request : ChunkRequest) : Handler Blob PolicyVersionResponse := do
  ensure (!request.name.isEmpty) nameRequired
  ensure (!request.chunkId.isEmpty) chunkIdRequired
  requireNoGlobalPolicy
  let sandbox ← fetchSandbox request.name
  let chunk ← fetchChunk request.chunkId
  ensure (chunk.status = .pending || chunk.status = .rejected)
    (unexpectedStatus chunk.status "'pending' or 'rejected'")
  let written ← mergeChunkIntoPolicy wire lower sandbox.id chunk
  let nowMs ← decisionTime
  let _ ← setChunkStatus request.chunkId .approved (some nowMs)
  pure ⟨versionNumber written.1, written.2⟩

/-- Only the rejection of an approved chunk touches the policy, and only then is the guard asked. -/
def revokeApproved (sandboxId : String) (chunk : DraftChunkRecord Blob) : Handler Blob Unit :=
  if chunk.status = .approved then do
    requireNoGlobalPolicy
    let _ ← removeChunkFromPolicy wire sandboxId chunk
    pure ()
  else pure ()

def handleRejectDraftChunk (request : ChunkRequest) : Handler Blob Unit := do
  ensure (!request.name.isEmpty) nameRequired
  ensure (!request.chunkId.isEmpty) chunkIdRequired
  let sandbox ← fetchSandbox request.name
  let chunk ← fetchChunk request.chunkId
  ensure (chunk.status = .pending || chunk.status = .approved)
    (unexpectedStatus chunk.status "'pending' or 'approved'")
  revokeApproved wire sandbox.id chunk
  let nowMs ← decisionTime
  let _ ← setChunkStatus request.chunkId .rejected (some nowMs)
  pure ()

def approveEach (sandboxId : String) (includeSecurityFlagged : Bool) :
    List (DraftChunkRecord Blob) → ApproveAllDraftChunksResponse →
      Handler Blob ApproveAllDraftChunksResponse
  | [], done => pure done
  | chunk :: rest, done =>
    if !includeSecurityFlagged && !chunk.securityNotes.isEmpty then
      approveEach sandboxId includeSecurityFlagged rest
        { done with chunksSkipped := done.chunksSkipped + 1 }
    else do
      let written ← mergeChunkIntoPolicy wire lower sandboxId chunk
      let nowMs ← decisionTime
      let _ ← setChunkStatus chunk.id .approved (some nowMs)
      approveEach sandboxId includeSecurityFlagged rest
        { done with
          policyVersion := versionNumber written.1
          policyHash := written.2
          chunksApproved := done.chunksApproved + 1 }

def handleApproveAllDraftChunks (request : ApproveAllDraftChunksRequest) :
    Handler Blob ApproveAllDraftChunksResponse := do
  ensure (!request.name.isEmpty) nameRequired
  requireNoGlobalPolicy
  let sandbox ← fetchSandbox request.name
  let pendingChunks ← orInternal "list draft chunks failed"
    (← ask (.listDraftChunks sandbox.id (some .pending)))
  ensure (!pendingChunks.isEmpty) ⟨.failedPrecondition, "no pending chunks to approve"⟩
  approveEach wire lower sandbox.id request.includeSecurityFlagged pendingChunks {}

/-- The sandbox is looked up and not used any further. -/
def handleEditDraftChunk (request : EditDraftChunkRequest) : Handler Blob Unit := do
  ensure (!request.name.isEmpty) nameRequired
  ensure (!request.chunkId.isEmpty) chunkIdRequired
  let proposedRule ← orElse ⟨.invalidArgument, "proposed_rule is required"⟩ request.proposedRule
  let _ ← fetchSandbox request.name
  let chunk ← fetchChunk request.chunkId
  ensure (chunk.status = .pending) (unexpectedStatus chunk.status "'pending'")
  let _ ← orInternal "update chunk rule failed"
    (← ask (.updateDraftChunkRule request.chunkId (wire.encodeRule proposedRule)))
  pure ()

/-- Unlike a rejection, an undo does not ask whether a global policy is active. -/
def handleUndoDraftChunk (request : ChunkRequest) : Handler Blob PolicyVersionResponse := do
  ensure (!request.name.isEmpty) nameRequired
  ensure (!request.chunkId.isEmpty) chunkIdRequired
  let sandbox ← fetchSandbox request.name
  let chunk ← fetchChunk request.chunkId
  ensure (chunk.status = .approved) (unexpectedStatus chunk.status "'approved'")
  let written ← removeChunkFromPolicy wire sandbox.id chunk
  let _ ← setChunkStatus request.chunkId .pending none
  pure ⟨versionNumber written.1, written.2⟩

def handleClearDraftChunks (name : String) : Handler Blob UInt32 := do
  ensure (!name.isEmpty) nameRequired
  let sandbox ← fetchSandbox name
  let deleted ← orInternal "delete draft chunks failed" (← ask (.deleteDraftChunks sandbox.id .pending))
  pure (versionNumber deleted)

end OpenShell.Server
