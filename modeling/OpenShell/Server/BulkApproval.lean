import OpenShell.Lib.Machine
import OpenShell.Server.DraftLoop
import OpenShell.Server.Isolation

namespace OpenShell.Server

open OpenShell.Policy OpenShell.Sandbox Effects Effects.Fallible Relational

variable {Blob : Type}

/-! The notes of a chunk are written when it is submitted. What they tell an approval of all chunks at once. -/

structure SubmitPolicyAnalysisRequest where
  name : String
  /-- Each chunk stands beside the id that is drawn for it. -/
  proposedChunks : List (String × Mapper.PolicyChunk)

structure SubmitPolicyAnalysisResponse where
  acceptedChunks : Nat := 0
  rejectedChunks : Nat := 0
  rejectionReasons : List String := []

/-- A second chunk for the same destination and binary only adds to the counters of the first, whatever its
    status is. -/
def Store.putDraftChunk (store : Store Blob) (chunk : DraftChunkRecord Blob) : Except String (Store Blob) :=
  if store.chunks.rows.any fun held =>
      held.sandboxId = chunk.sandboxId ∧ held.host = chunk.host ∧ held.port = chunk.port ∧ held.binary = chunk.binary then
    .ok store
  else
    match store.chunks.insert chunk with
    | some chunks => .ok { store with chunks := chunks }
    | none => .error (Store.uniqueViolation "draft_policy_chunks.id")

def rejectionReason (chunk : Mapper.PolicyChunk) : String :=
  if chunk.ruleName.isEmpty then "chunk missing rule_name"
  else "chunk '" ++ chunk.ruleName ++ "' missing proposed_rule"

section Submit

variable (wire : Wire Blob) (lower : String → String)

def submitEach (sandboxId : String) : List (String × Mapper.PolicyChunk) → SubmitPolicyAnalysisResponse →
    Store Blob → Except Status SubmitPolicyAnalysisResponse × Store Blob
  | [], response, store => (.ok response, store)
  | (id, chunk) :: rest, response, store =>
    match submittedRecord wire lower id sandboxId store.nowMs chunk with
    | none =>
      submitEach sandboxId rest { response with
        rejectedChunks := response.rejectedChunks + 1
        rejectionReasons := response.rejectionReasons ++ [rejectionReason chunk] } store
    | some record =>
      match store.putDraftChunk record with
      | .ok after => submitEach sandboxId rest { response with acceptedChunks := response.acceptedChunks + 1 } after
      | .error text => (.error ⟨.internal, "persist draft chunk failed: " ++ text⟩, store)

def handleSubmitPolicyAnalysis (request : SubmitPolicyAnalysisRequest) (store : Store Blob) :
    Except Status SubmitPolicyAnalysisResponse × Store Blob :=
  if request.name.isEmpty then (.error nameRequired, store)
  else
    match store.getSandboxByName request.name with
    | none => (.error sandboxNotFound, store)
    | some sandbox => submitEach wire lower sandbox.id request.proposedChunks {} store

end Submit

/-! Notes for a whole rule. -/

def notePort (port : UInt32) : UInt16 := if port < 65536 then port.toUInt16 else 0

/-- The ports of an endpoint as the merge reads them. -/
def endpointPorts (endpoint : NetworkEndpoint) : List UInt32 :=
  if endpoint.ports.isEmpty then [endpoint.port] else endpoint.ports

def endpointNotes (lower : String → String) (endpoint : NetworkEndpoint) (port : UInt32) : String :=
  generateSecurityNotes (lower endpoint.host) (notePort port)

/-- There is nothing to note about any port of any endpoint. -/
def Unflagged (lower : String → String) (rule : NetworkPolicyRule) : Prop :=
  ∀ endpoint ∈ rule.endpoints, ∀ port ∈ endpointPorts endpoint, endpointNotes lower endpoint port = ""

instance (lower : String → String) (rule : NetworkPolicyRule) : Decidable (Unflagged lower rule) :=
  @List.decidableBAll NetworkEndpoint _
    (fun endpoint => List.decidableBAll (fun port => endpointNotes lower endpoint port = "") (endpointPorts endpoint))
    rule.endpoints

inductive DraftEvent where
  | submit (request : SubmitPolicyAnalysisRequest)
  | decide (call : DraftCall)
  | approveAll (request : ApproveAllDraftChunksRequest)
  | clear (name : String)

namespace DraftEvent

variable (wire : Wire Blob) (lower : String → String)

def outcome (store : Store Blob) : DraftEvent → Store Blob
  | submit request => (handleSubmitPolicyAnalysis wire lower request store).2
  | decide call => ((call.handle wire lower).run Store.exec store).2
  | approveAll request => ((handleApproveAllDraftChunks wire lower request).run Store.exec store).2
  | clear name => ((handleClearDraftChunks name).run Store.exec store).2

/-- The first endpoint of a submitted rule tells as much as the others, and an edit sets a rule without
    anything to note, or edits a chunk that has notes. -/
def Vetted (store : Store Blob) : DraftEvent → Prop
  | submit request => ∀ proposal ∈ request.proposedChunks, ∀ rule first, proposal.2.proposedRule = some rule →
      rule.endpoints.head? = some first → endpointNotes lower first first.port = "" → Unflagged lower rule
  | decide (.edit request) => ∀ rule, request.proposedRule = some rule → Unflagged lower rule ∨
      ∃ chunk, store.chunks.lookup request.chunkId = some chunk ∧ chunk.securityNotes ≠ ""
  | _ => True

end DraftEvent

/-- An approval of all chunks, without the flagged ones, approves no rule with something to note. -/
def RespectsFlags (wire : Wire Blob) (lower : String → String) (store : Store Blob) : Prop :=
  ∀ name chunk now rule, store.chunks.lookup chunk.id = some chunk → chunk.status = .pending →
    ((handleApproveAllDraftChunks wire lower ⟨name, false⟩).run Store.exec store).2.chunks.lookup chunk.id = some now →
    now.status = .approved → wire.decodeRule chunk.proposedRule = .ok rule → Unflagged lower rule

/-- A chunk without notes has a rule without anything to note. -/
def NotesTell (wire : Wire Blob) (lower : String → String) (store : Store Blob) : Prop :=
  ∀ chunk ∈ store.chunks, chunk.securityNotes = "" → ∀ rule, wire.decodeRule chunk.proposedRule = .ok rule →
    Unflagged lower rule

section Steps

variable {wire : Wire Blob} {lower : String → String} {store after : Store Blob}

theorem NotesTell.transfer (tell : NotesTell wire lower store)
    (chunks : ∀ chunk ∈ after.chunks, ∃ old ∈ store.chunks, chunk.securityNotes = old.securityNotes ∧
      chunk.proposedRule = old.proposedRule) : NotesTell wire lower after := by
  intro chunk member silent rule decoded
  obtain ⟨old, oldMember, notes, proposed⟩ := chunks chunk member
  rw [notes] at silent
  rw [proposed] at decoded
  exact tell old oldMember silent rule decoded

theorem NotesTell.frame (tell : NotesTell wire lower store) (chunks : after.chunks = store.chunks) :
    NotesTell wire lower after := by
  apply tell.transfer
  intro chunk member
  rw [chunks] at member
  exact ⟨chunk, member, rfl, rfl⟩

theorem NotesTell.decide (tell : NotesTell wire lower store) (id : String) (status : ChunkStatus)
    (decidedAtMs : Option Int) : NotesTell wire lower (store.updateDraftChunkStatus id status decidedAtMs) := by
  apply tell.transfer
  intro chunk member
  rw [Store.updateDraftChunkStatus, Table.mem_update] at member
  obtain ⟨old, oldMember, rfl⟩ := member
  refine ⟨old, oldMember, ?_⟩
  split <;> exact ⟨rfl, rfl⟩

theorem appendRevision_chunks (sandboxId : String) (payload : Blob) (hash : String) :
    (store.appendRevision sandboxId payload hash).chunks = store.chunks := by
  rw [Store.appendRevision_frame]

theorem run_merge_chunks (sandboxId : String) (chunk : DraftChunkRecord Blob) :
    ((mergeChunkIntoPolicy wire lower sandboxId chunk).run Store.exec store).2.chunks = store.chunks := by
  by_cases ready : ∃ rule policy, Mergeable wire store sandboxId chunk rule policy
  · obtain ⟨rule, policy, mergeable⟩ := ready
    rw [run_mergeChunkIntoPolicy wire lower mergeable]
    exact appendRevision_chunks _ _ _
  · obtain ⟨status, failed⟩ := run_mergeChunkIntoPolicy_error wire lower ready
    rw [failed]

theorem NotesTell.merge (tell : NotesTell wire lower store) (sandboxId : String) (chunk : DraftChunkRecord Blob) :
    NotesTell wire lower ((mergeChunkIntoPolicy wire lower sandboxId chunk).run Store.exec store).2 :=
  tell.frame (run_merge_chunks sandboxId chunk)

theorem NotesTell.put {chunk : DraftChunkRecord Blob} (tell : NotesTell wire lower store)
    (own : chunk.securityNotes = "" → ∀ rule, wire.decodeRule chunk.proposedRule = .ok rule → Unflagged lower rule)
    (written : store.putDraftChunk chunk = .ok after) : NotesTell wire lower after := by
  unfold Store.putDraftChunk at written
  split at written
  · cases written
    exact tell
  · split at written
    · rename_i chunks inserted
      cases written
      intro held member
      rw [Table.mem_rows, (Table.insert_some inserted).1] at member
      rcases List.mem_append.mp member with earlier | added
      · exact tell held earlier
      · rw [List.mem_singleton.mp added]
        exact own
    · cases written

/-- The record holds the notes of the first endpoint. -/
theorem submittedRecord_tells {id sandboxId : String} {nowMs : Int} {chunk : Mapper.PolicyChunk}
    {record : DraftChunkRecord Blob} (taken : submittedRecord wire lower id sandboxId nowMs chunk = some record)
    (vetted : ∀ rule first, chunk.proposedRule = some rule → rule.endpoints.head? = some first →
      endpointNotes lower first first.port = "" → Unflagged lower rule)
    (silent : record.securityNotes = "") {rule : NetworkPolicyRule}
    (decoded : wire.decodeRule record.proposedRule = .ok rule) : Unflagged lower rule := by
  unfold submittedRecord at taken
  split at taken
  · cases taken
  · obtain ⟨rule, given, rfl⟩ := Option.map_eq_some_iff.mp taken
    rw [wire.rule_round_trip] at decoded
    cases decoded
    cases endpoints : rule.endpoints with
    | nil =>
      intro endpoint member
      rw [endpoints] at member
      cases member
    | cons first rest =>
      apply vetted rule first given (by rw [endpoints]; rfl)
      simp only [endpoints, List.head?_cons, Option.map_some, Option.getD_some] at silent
      exact silent

theorem NotesTell.submitEach {sandboxId : String} {proposals : List (String × Mapper.PolicyChunk)}
    {response : SubmitPolicyAnalysisResponse} (tell : NotesTell wire lower store)
    (vetted : ∀ proposal ∈ proposals, ∀ rule first, proposal.2.proposedRule = some rule →
      rule.endpoints.head? = some first → endpointNotes lower first first.port = "" → Unflagged lower rule) :
    NotesTell wire lower (submitEach wire lower sandboxId proposals response store).2 := by
  induction proposals generalizing response store with
  | nil => exact tell
  | cons proposal rest ih =>
    have later := fun other member => vetted other (List.mem_cons_of_mem proposal member)
    unfold Server.submitEach
    split
    · exact ih tell later
    · rename_i record taken
      split
      · rename_i after written
        have own := submittedRecord_tells taken (vetted proposal (List.mem_cons_self ..))
        exact ih (tell.put (fun silent rule decoded => own silent decoded) written) later
      · exact tell

theorem NotesTell.editRule (tell : NotesTell wire lower store) {id : String} {rule : NetworkPolicyRule}
    {chunk : DraftChunkRecord Blob} (found : store.chunks.lookup id = some chunk)
    (vetted : Unflagged lower rule ∨ chunk.securityNotes ≠ "") :
    NotesTell wire lower (store.updateDraftChunkRule id (wire.encodeRule rule)) := by
  intro held member silent written decoded
  rw [Store.updateDraftChunkRule, Table.mem_update] at member
  obtain ⟨old, oldMember, rfl⟩ := member
  by_cases selected : old.id = id ∧ old.status = .pending
  · rw [if_pos (by simpa using selected)] at silent decoded
    have same : old = chunk := Table.eq_of_key oldMember (Table.lookup_some.mp found).1
      (selected.1.trans (Table.lookup_some.mp found).2.symm)
    have encoded : wire.decodeRule (wire.encodeRule rule) = .ok written := decoded
    rw [wire.rule_round_trip] at encoded
    cases encoded
    rcases vetted with clean | noted
    · exact clean
    · rw [← same] at noted
      exact absurd silent noted
  · rw [if_neg (by simpa using selected)] at silent decoded
    exact tell old oldMember silent written decoded

theorem NotesTell.decision (tell : NotesTell wire lower store) {call : DraftCall}
    (vetted : (DraftEvent.decide call).Vetted lower store) :
    NotesTell wire lower ((DraftEvent.decide call).outcome wire lower store) := by
  show NotesTell wire lower ((call.handle wire lower).run Store.exec store).2
  by_cases ready : call.Ready wire store
  · cases call with
    | approve request =>
      obtain ⟨sandbox, chunk, rule, policy, approvable⟩ := ready
      simp only [DraftCall.handle]
      rw [run_bind_of_ok (run_approve approvable)]
      exact (tell.frame (appendRevision_chunks _ _ _)).decide _ _ _
    | reject request =>
      rcases ready with ⟨sandbox, chunk, pending⟩ | ⟨sandbox, chunk, policy, approved⟩
      · simp only [DraftCall.handle]
        rw [run_reject_pending pending]
        exact tell.decide _ _ _
      · simp only [DraftCall.handle]
        rw [run_reject_approved approved]
        exact (tell.frame (appendRevision_chunks _ _ _)).decide _ _ _
    | edit request =>
      obtain ⟨sandbox, chunk, rule, editable⟩ := ready
      simp only [DraftCall.handle]
      rw [run_edit editable]
      refine tell.editRule editable.resolved.chunkFound ?_
      rcases vetted rule editable.proposed with clean | ⟨held, found, noted⟩
      · exact .inl clean
      · rw [editable.resolved.chunkFound] at found
        cases found
        exact .inr noted
    | undo request =>
      obtain ⟨sandbox, chunk, policy, undoable⟩ := ready
      simp only [DraftCall.handle]
      rw [run_bind_of_ok (run_undo undoable)]
      exact (tell.frame (appendRevision_chunks _ _ _)).decide _ _ _
  · obtain ⟨status, failed⟩ : Refuses (call.handle wire lower) store := DraftCall.refuses ready
    rw [failed]
    exact tell

/-! The approval of all chunks. -/

theorem NotesTell.approveEach {sandboxId : String} {flagged : Bool} {chunks : List (DraftChunkRecord Blob)}
    {done : ApproveAllDraftChunksResponse} (tell : NotesTell wire lower store) :
    NotesTell wire lower ((approveEach wire lower sandboxId flagged chunks done).run Store.exec store).2 := by
  induction chunks generalizing done store with
  | nil => exact tell
  | cons chunk rest ih =>
    unfold Server.approveEach
    split
    · exact ih tell
    · cases merged : (mergeChunkIntoPolicy wire lower sandboxId chunk).run Store.exec store with
      | mk result next =>
        have held := tell.merge sandboxId chunk
        rw [merged] at held
        cases result with
        | error status =>
          rw [run_bind_of_error merged]
          exact held
        | ok written =>
          rw [run_bind_of_ok merged, run_decisionTime_bind, run_setChunkStatus_bind]
          exact ih (held.decide _ _ _)

/-- A chunk that is not among those to be merged stays as it is. -/
theorem approveEach_skips {sandboxId id : String} {chunks : List (DraftChunkRecord Blob)}
    {done : ApproveAllDraftChunksResponse} (noted : ∀ chunk ∈ chunks, chunk.id = id → chunk.securityNotes ≠ "") :
    ((approveEach wire lower sandboxId false chunks done).run Store.exec store).2.chunks.lookup id =
      store.chunks.lookup id := by
  induction chunks generalizing done store with
  | nil => rfl
  | cons chunk rest ih =>
    have later := fun other member => noted other (List.mem_cons_of_mem chunk member)
    unfold Server.approveEach
    split
    · exact ih later
    · rename_i plain
      have other : chunk.id ≠ id := by
        intro same
        have filled := noted chunk (List.mem_cons_self ..) same
        simp [filled] at plain
      cases merged : (mergeChunkIntoPolicy wire lower sandboxId chunk).run Store.exec store with
      | mk result next =>
        have frame : ((mergeChunkIntoPolicy wire lower sandboxId chunk).run Store.exec store).2.chunks = store.chunks :=
          run_merge_chunks sandboxId chunk
        rw [merged] at frame
        cases result with
        | error status =>
          rw [run_bind_of_error merged, frame]
        | ok written =>
          rw [run_bind_of_ok merged, run_decisionTime_bind, run_setChunkStatus_bind, ih later,
            Store.updateDraftChunkStatus, Table.lookup_update, frame]
          cases found : store.chunks.lookup id with
          | none => rfl
          | some held =>
            have key := (Table.lookup_some.mp found).2
            simp [key, Ne.symm other]

theorem NotesTell.clear (tell : NotesTell wire lower store) (name : String) :
    NotesTell wire lower ((handleClearDraftChunks name).run Store.exec store).2 := by
  show Leaves (NotesTell wire lower) (handleClearDraftChunks name) store
  apply Leaves.guard tell
  intro _
  apply Leaves.fetchSandbox tell
  intro sandbox _
  unfold Leaves
  rw [run_ask_bind]
  simp only [Store.exec, run_orInternal_ok_bind, run_pure]
  apply tell.transfer
  intro chunk member
  exact ⟨chunk, List.mem_of_mem_filter member, rfl, rfl⟩

theorem NotesTell.step (tell : NotesTell wire lower store) {event : DraftEvent} (vetted : event.Vetted lower store) :
    NotesTell wire lower (event.outcome wire lower store) := by
  cases event with
  | submit request =>
    show NotesTell wire lower (handleSubmitPolicyAnalysis wire lower request store).2
    unfold handleSubmitPolicyAnalysis
    split
    · exact tell
    · split
      · exact tell
      · exact tell.submitEach vetted
  | decide call => exact tell.decision vetted
  | approveAll request => exact Leaves.approveAll tell request fun _ => tell.approveEach
  | clear name => exact tell.clear name

/-- What is approved had no notes. -/
theorem NotesTell.respectsFlags (tell : NotesTell wire lower store) : RespectsFlags wire lower store := by
  intro name chunk now rule found pending approved status decoded
  apply tell chunk (Table.lookup_some.mp found).1 _ rule decoded
  by_contra noted
  have skipped : Leaves (fun held => held.chunks.lookup chunk.id = store.chunks.lookup chunk.id)
      (handleApproveAllDraftChunks wire lower ⟨name, false⟩) store := by
    refine Leaves.approveAll ?_ _ ?_
    · rfl
    intro sandboxId
    apply approveEach_skips
    intro listed member same
    have stored : listed ∈ store.chunks := by
      rw [Store.listDraftChunks, List.mem_mergeSort] at member
      exact (List.mem_filter.mp member).1
    rw [Table.eq_of_key stored (Table.lookup_some.mp found).1 same]
    exact noted
  unfold Leaves at skipped
  rw [skipped, found] at approved
  cases approved
  rw [pending] at status
  cases status

end Steps

/-- Without chunks at the start, and as long as every submission and every edit is vetted, an approval of all
    chunks never merges a rule with something to note. -/
theorem bulkApproval_respects_flags (wire : Wire Blob) (lower : String → String) {store : Store Blob}
    (fresh : store.chunks.rows = []) {events : List DraftEvent}
    (vetted : Machine.Along (DraftEvent.outcome wire lower) (DraftEvent.Vetted lower) store events) :
    RespectsFlags wire lower (Machine.run (DraftEvent.outcome wire lower) store events) := by
  apply NotesTell.respectsFlags
  apply Machine.Along.invariant (NotesTell wire lower) _ vetted
  · intro chunk member
    rw [Table.mem_rows, fresh] at member
    cases member
  · intro state event _ tell admitted
    exact tell.step admitted

section Example

/-- The second endpoint is a database on an internal address. -/
def twoPlacesRule : NetworkPolicyRule :=
  { name := "api", endpoints := [{ host := "api.example.com", port := 443 }, { host := "10.0.0.5", port := 5432 }],
    binaries := [{ path := "/usr/bin/curl" }] }

def proposalOf (rule : NetworkPolicyRule) : Mapper.PolicyChunk :=
  { status := "pending", ruleName := "api", proposedRule := some rule, rationale := "", securityNotes := "",
    stage := "initial", hitCount := 1, firstSeenMs := 0, lastSeenMs := 0, binary := "/usr/bin/curl" }

def submission (rule : NetworkPolicyRule) : DraftEvent := .submit ⟨"beta", [("c1", proposalOf rule)]⟩

def betaStore : Store Message := (Store.exec (.putSandbox { id := "sb", name := "beta" }) {}).2

def submittedStore (rule : NetworkPolicyRule) : Store Message :=
  Machine.run (DraftEvent.outcome plainWire id) betaStore [submission rule]

def approvedStore (rule : NetworkPolicyRule) : Store Message :=
  ((handleApproveAllDraftChunks plainWire id ⟨"beta", false⟩).run Store.exec (submittedStore rule)).2

theorem twoPlaces_approved : ¬ ∀ (store : Store Message) (events : List DraftEvent), store.chunks.rows = [] →
    RespectsFlags plainWire id (Machine.run (DraftEvent.outcome plainWire id) store events) := by
  intro respects
  have respected := respects betaStore [submission twoPlacesRule] rfl
  have waiting : ((submittedStore twoPlacesRule).chunks.lookup "c1").map
      (fun chunk => (chunk.status, chunk.proposedRule)) = some (.pending, .rule twoPlacesRule) := by decide +kernel
  have granted : ((approvedStore twoPlacesRule).chunks.lookup "c1").map DraftChunkRecord.status = some .approved := by
    decide +kernel
  obtain ⟨chunk, found, state⟩ := Option.map_eq_some_iff.mp waiting
  obtain ⟨now, foundNow, status⟩ := Option.map_eq_some_iff.mp granted
  rw [Prod.mk.injEq] at state
  have own : chunk.id = "c1" := (Table.lookup_some.mp found).2
  have clean := respected "beta" chunk now twoPlacesRule (own ▸ found) state.1 (own ▸ foundNow) status
    (by rw [state.2]; rfl)
  exact absurd clean (by decide +kernel)

def onePlaceRule : NetworkPolicyRule :=
  { name := "api", endpoints := [{ host := "api.example.com", port := 443 }], binaries := [{ path := "/usr/bin/curl" }] }

theorem onePlace_respected : RespectsFlags plainWire id (submittedStore onePlaceRule) := by
  apply bulkApproval_respects_flags plainWire id (show betaStore.chunks.rows = [] from rfl)
  refine ⟨?_, True.intro⟩
  intro proposal member rule first given _ _
  rw [List.mem_singleton.mp member] at given
  cases given
  decide +kernel

end Example

end OpenShell.Server
