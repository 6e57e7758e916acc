import OpenShell.Server.DraftPhase
import OpenShell.Server.Isolation

namespace OpenShell.Server

open OpenShell.Policy Effects Effects.Fallible

variable {Blob α : Type} {wire : Wire Blob} {lower : String → String} {start : Store Blob}
  {chunk : DraftChunkRecord Blob} {direction : Direction} {status : ChunkStatus} {decidedAtMs : Option Int}

abbrev Led (wire : Wire Blob) (lower : String → String) (chunk : DraftChunkRecord Blob)
    (direction : Direction) (store : Store Blob) : Prop :=
  direction.Met (store.Grants wire lower chunk)

theorem led_stable : (draftPhase wire lower start chunk direction).Stable (Led wire lower chunk direction) :=
  fun _ _ _ held evolved => evolved.2 held

theorem SettlesCall.putRevision {latest : Option (PolicyRecord Blob)} {policy : SandboxPolicy}
    {next : Option (Nat × String) → Handler Blob α}
    (leads : ∀ before, latest.elim (.ok {}) (fun record => wire.decodePolicy record.policyPayload) = .ok before →
      SoleRule lower chunk before →
        SoleRule lower chunk policy ∧ direction.Met (chunk.grant ∈ granted lower policy))
    (written : ∀ revision, SettlesCall wire lower start chunk direction (next (some revision))
      (Led wire lower chunk direction) true)
    (conflict : SettlesCall wire lower start chunk direction (next none) (fun _ => True) false) :
    SettlesCall wire lower start chunk direction
      (Server.putRevision wire chunk.sandboxId (latest.elim 0 PolicyRecord.version + 1) policy >>= next)
      (Store.ReadAt wire chunk.sandboxId latest) false := by
  unfold Server.putRevision
  rw [bind_assoc]
  apply SettlesCall.insert leads
  · rw [bind_assoc]
    apply SettlesCall.supersede led_stable
    intro _
    exact written _
  · intro text
    by_cases retried : isConflict text
    · simp only [retried, if_true]
      exact conflict
    · simp only [retried]
      exact SettlesCall.stop _

theorem settles_mergeAttempts {rule : NetworkPolicyRule} {next : Nat × String → Handler Blob α}
    (proposes : chunk.grant ∈ ruleGrants lower rule)
    (rest : ∀ written, SettlesCall wire lower start chunk .granting (next written)
      (Led wire lower chunk .granting) true) (attempts : Nat) :
    SettlesCall wire lower start chunk .granting
      (mergeAttempts wire lower chunk.sandboxId (chunk.decide status decidedAtMs) rule attempts >>= next)
      (fun _ => True) false := by
  induction attempts with
  | zero => exact SettlesCall.stop _
  | succ attempts ih =>
    unfold mergeAttempts
    rw [bind_assoc]
    apply SettlesCall.getLatest
    intro latest
    rw [orInternal_ok_bind, bind_assoc]
    apply mergeBase_rule wire
      (SettlesCall wire lower start chunk .granting · (Store.ReadAt wire chunk.sandboxId latest) false)
    · intro status
      exact SettlesCall.stop _
    · intro policy decoded
      rw [bind_assoc]
      apply SettlesCall.putRevision
      · intro before same sole
        rw [decoded] at same
        cases same
        exact sole.merge proposes
      · exact rest
      · exact ih

theorem settles_removeAttempts {next : Nat × String → Handler Blob α}
    (rest : ∀ written, SettlesCall wire lower start chunk .withdrawing (next written)
      (Led wire lower chunk .withdrawing) true) (attempts : Nat) :
    SettlesCall wire lower start chunk .withdrawing
      (removeAttempts wire chunk.sandboxId (chunk.decide status decidedAtMs) attempts >>= next)
      (fun _ => True) false := by
  induction attempts with
  | zero => exact SettlesCall.stop _
  | succ attempts ih =>
    unfold removeAttempts
    rw [bind_assoc]
    apply SettlesCall.getLatest
    intro latest
    rw [orInternal_ok_bind]
    cases latest with
    | none => exact SettlesCall.stop _
    | some record =>
      rw [orElse_some_bind]
      cases decoded : wire.decodePolicy record.policyPayload with
      | error text => exact SettlesCall.stop _
      | ok policy =>
        rw [orInternal_ok_bind, bind_assoc]
        apply @SettlesCall.putRevision _ _ _ _ _ _ _ (some record)
        · intro before same sole
          rw [Option.elim_some, decoded] at same
          cases same
          exact sole.remove
        · exact rest
        · exact ih

theorem SettlesCall.conclude {owes : Bool} {next : Bool → Handler Blob α}
    (follows : direction.Met (status = .approved)) (ends : ∀ value, ∃ result, next value = pure result) :
    SettlesCall wire lower start chunk direction
      (decisionTime >>= fun nowMs => setChunkStatus chunk.id status (some nowMs) >>= next)
      (Led wire lower chunk direction) owes := by
  unfold decisionTime
  rw [bind_assoc]
  apply SettlesCall.read rfl
  intro state _ led
  exact ⟨_, led_stable, led, SettlesCall.decide follows ends⟩

def ProposesGrant (wire : Wire Blob) (lower : String → String) (chunk : DraftChunkRecord Blob) : Prop :=
  ∀ rule, wire.decodeRule chunk.proposedRule = .ok rule → chunk.grant ∈ ruleGrants lower rule

theorem settles_approve {request : ChunkRequest} (own : request.chunkId = chunk.id)
    (owner : NamesOwner start chunk request.name) (proposes : ProposesGrant wire lower chunk) :
    SettlesCall wire lower start chunk .granting
      ((DraftCall.approve request).handle wire lower) (fun _ => True) false := by
  simp only [DraftCall.handle, handleApproveDraftChunk, bind_assoc, own]
  apply SettlesCall.after (Sends.guard _ _) (Discipline.stable_true _)
  intro _
  apply SettlesCall.after (Sends.guard _ _) (Discipline.stable_true _)
  intro _
  apply SettlesCall.after (Sends.requireNoGlobalPolicy rfl) (Discipline.stable_true _)
  intro _
  apply SettlesCall.fetchSandbox owner
  intro sandbox ownerId
  apply SettlesCall.fetchChunk
  intro status decidedAtMs
  refine SettlesCall.weaken ?_ fun _ _ => True.intro
  apply SettlesCall.after (Sends.guard _ _) (Discipline.stable_true _)
  intro _
  rw [ownerId, mergeChunkIntoPolicy, bind_assoc]
  cases decoded : wire.decodeRule chunk.proposedRule with
  | error text =>
    simp only [DraftChunkRecord.decide, decoded, orInternal_error_bind]
    exact SettlesCall.stop _
  | ok rule =>
    simp only [DraftChunkRecord.decide, decoded, orInternal_ok_bind]
    apply settles_mergeAttempts (proposes rule decoded)
    intro written
    exact SettlesCall.conclude rfl fun value => ⟨_, rfl⟩

theorem settles_undo {request : ChunkRequest} (own : request.chunkId = chunk.id)
    (owner : NamesOwner start chunk request.name) :
    SettlesCall wire lower start chunk .withdrawing
      ((DraftCall.undo request).handle wire lower) (fun _ => True) false := by
  simp only [DraftCall.handle, handleUndoDraftChunk, bind_assoc, own]
  apply SettlesCall.after (Sends.guard _ _) (Discipline.stable_true _)
  intro _
  apply SettlesCall.after (Sends.guard _ _) (Discipline.stable_true _)
  intro _
  apply SettlesCall.fetchSandbox owner
  intro sandbox ownerId
  apply SettlesCall.fetchChunk
  intro status decidedAtMs
  refine SettlesCall.weaken ?_ fun _ _ => True.intro
  apply SettlesCall.after (Sends.guard _ _) (Discipline.stable_true _)
  intro _
  rw [ownerId]
  apply settles_removeAttempts
  intro written
  exact SettlesCall.decide (by simp [Direction.Met]) fun value => ⟨_, rfl⟩

theorem settles_reject {request : ChunkRequest} (own : request.chunkId = chunk.id)
    (owner : NamesOwner start chunk request.name) :
    SettlesCall wire lower start chunk .withdrawing
      ((DraftCall.reject request).handle wire lower) (fun _ => True) false := by
  have rejected : Direction.withdrawing.Met (ChunkStatus.rejected = .approved) := by simp [Direction.Met]
  simp only [DraftCall.handle, handleRejectDraftChunk, own]
  apply SettlesCall.after (Sends.guard _ _) (Discipline.stable_true _)
  intro _
  apply SettlesCall.after (Sends.guard _ _) (Discipline.stable_true _)
  intro _
  apply SettlesCall.fetchSandbox owner
  intro sandbox ownerId
  apply SettlesCall.fetchChunk
  intro status decidedAtMs
  apply SettlesCall.after (Sends.guard _ _) (granted_stable _)
  intro _
  rw [ownerId]
  by_cases approved : status = .approved
  · have revokes : revokeApproved wire chunk.sandboxId (chunk.decide status decidedAtMs) = (do
        requireNoGlobalPolicy
        let _ ← removeChunkFromPolicy wire chunk.sandboxId (chunk.decide status decidedAtMs)
        pure ()) := by
      unfold revokeApproved
      rw [if_pos]
      exact approved
    refine SettlesCall.weaken ?_ fun _ _ => True.intro
    rw [revokes, bind_assoc]
    apply SettlesCall.after (Sends.requireNoGlobalPolicy rfl) (Discipline.stable_true _)
    intro _
    rw [bind_assoc]
    apply settles_removeAttempts
    intro written
    exact SettlesCall.conclude rejected fun value => ⟨_, rfl⟩
  · have skips : revokeApproved wire chunk.sandboxId (chunk.decide status decidedAtMs) = pure () := by
      unfold revokeApproved
      rw [if_neg]
      exact approved
    rw [skips]
    refine SettlesCall.weaken ?_ fun store known => known approved
    exact SettlesCall.conclude rejected fun value => ⟨_, rfl⟩

def DraftCall.towards : DraftCall → Option Direction
  | .approve _ => some .granting
  | .reject _ | .undo _ => some .withdrawing
  | .edit _ => none

/-- Calls of approve, reject and undo, interleaved statement by statement. -/
def DecisionsReach (wire : Wire Blob) (lower : String → String)
    (admits : Config (storeInterface Blob) (Store Blob) DraftCall (Except Status Unit) → DraftCall → Prop)
    (start : Store Blob)
    (config : Config (storeInterface Blob) (Store Blob) DraftCall (Except Status Unit)) : Prop :=
  Reachable (DraftCall.handle wire lower) (fun op store => store.Carries op) admits start config

def DecidesOn (chunk : DraftChunkRecord Blob)
    (_ : Config (storeInterface Blob) (Store Blob) DraftCall (Except Status Unit)) (call : DraftCall) : Prop :=
  call.towards.isSome = true ∧ call.chunkId = chunk.id

/-- A decision on the chunk that names its own sandbox and does not overlap with one of the other
    direction. -/
structure DecidesInTurn (start : Store Blob) (chunk : DraftChunkRecord Blob)
    (config : Config (storeInterface Blob) (Store Blob) DraftCall (Except Status Unit))
    (call : DraftCall) : Prop where
  own : call.chunkId = chunk.id
  owner : NamesOwner start chunk call.name
  apart : ∃ direction, call.towards = some direction ∧
    ∀ thread ∈ config.threads, thread.program.finished = true ∨ thread.call.towards = some direction

/-- Before any decision: the chunk is not approved, and the policy has no rule of its name and no rule
    for its endpoint. -/
structure Undecided (wire : Wire Blob) (lower : String → String) (chunk : DraftChunkRecord Blob)
    (start : Store Blob) : Prop where
  stored : start.chunks.lookup chunk.id = some chunk
  status : chunk.status ≠ .approved
  unclaimed : ∃ policy, currentPolicy wire start chunk.sandboxId = .ok policy ∧
    mergeKey lower policy chunk = none

def Coherent (wire : Wire Blob) (lower : String → String) (start : Store Blob) (chunk : DraftChunkRecord Blob)
    (store : Store Blob) : Prop :=
  Governed wire lower start chunk store ∧ StatusAgrees wire lower chunk store

theorem coherent_at_start (undecided : Undecided wire lower chunk start) :
    Coherent wire lower start chunk start := by
  obtain ⟨stored, status, policy, current, unclaimed⟩ := undecided
  obtain ⟨sole, ungranted⟩ := soleRule_of_unclaimed unclaimed
  have row : start.chunks.lookup chunk.id = some (chunk.decide chunk.status chunk.decidedAtMs) := stored
  refine ⟨⟨rfl, ⟨_, _, row⟩, policy, current, sole⟩, ?_⟩
  unfold StatusAgrees
  rw [grants_of_policy current, approved_of_row row]
  exact iff_of_false ungranted status

theorem settles_decision {call : DraftCall} (own : call.chunkId = chunk.id)
    (owner : NamesOwner start chunk call.name) (proposes : ProposesGrant wire lower chunk)
    (leads : call.towards = some direction) :
    SettlesCall wire lower start chunk direction (call.handle wire lower) (fun _ => True) false := by
  cases call with
  | approve request =>
    cases leads
    exact settles_approve own owner proposes
  | reject request =>
    cases leads
    exact settles_reject own owner
  | undo request =>
    cases leads
    exact settles_undo own owner
  | edit request => cases leads

/-- Where approvals never overlap with rejections or undos, status and policy agree whenever no call
    is under way. -/
theorem status_agrees (undecided : Undecided wire lower chunk start)
    (proposes : ProposesGrant wire lower chunk)
    {config : Config (storeInterface Blob) (Store Blob) DraftCall (Except Status Unit)}
    (reached : DecisionsReach wire lower (DecidesInTurn start chunk) start config)
    (quiescent : config.Quiescent) : StatusAgrees wire lower chunk config.state := by
  have opens : ∀ direction store, Coherent wire lower start chunk store →
      (draftPhase wire lower start chunk direction).invariant store ∧
        (draftPhase wire lower start chunk direction).settled store := by
    intro direction store ⟨governed, same⟩
    exact ⟨⟨governed, (Direction.met_congr same).mpr⟩, (Direction.met_congr same).mp⟩
  have closes : ∀ direction store, (draftPhase wire lower start chunk direction).invariant store →
      (draftPhase wire lower start chunk direction).settled store → Coherent wire lower start chunk store := by
    intro direction store holds settled
    refine ⟨holds.1, ?_⟩
    cases direction with
    | granting => exact ⟨settled, holds.2⟩
    | withdrawing => exact not_iff_not.mp ⟨settled, holds.2⟩
  have coherent : Coherent wire lower start chunk config.state := by
    refine agrees_of_quiescent opens closes (fun _ _ admitted => admitted.apart) ?_
      (coherent_at_start undecided) reached quiescent
    intro config call direction admitted leads
    exact settles_decision admitted.own admitted.owner proposes leads
  exact coherent.2

section Example

def racedRule : NetworkPolicyRule :=
  { name := "allow_b", endpoints := [{ host := "b.example", port := 443 }],
    binaries := [{ path := "/usr/bin/git" }] }

def racedChunk : DraftChunkRecord Message :=
  { id := "c1", sandboxId := "sb", status := .pending, ruleName := "allow_b",
    proposedRule := .rule racedRule, host := "b.example", port := 443, binary := "/usr/bin/git" }

theorem racedSandboxes_unique : (List.map SandboxRow.id [⟨"beta", { id := "sb", name := "beta" }⟩]).Nodup :=
  List.nodup_singleton _

def racedStore : Store Message :=
  { sandboxes := ⟨[⟨"beta", { id := "sb", name := "beta" }⟩], racedSandboxes_unique⟩,
    chunks := ⟨[racedChunk], by decide⟩ }

theorem racedStore_undecided : Undecided plainWire String.toLower racedChunk racedStore :=
  ⟨rfl, by decide, {}, rfl, rfl⟩

def playDecisions (moves : List (Move DraftCall)) :
    Config (storeInterface Message) (Store Message) DraftCall (Except Status Unit) :=
  Config.play (DraftCall.handle plainWire String.toLower) Store.exec ⟨racedStore, []⟩ moves

/-- The rejection reads the pending row before the approval writes the policy, and has the last word
    on the status. -/
def approveThenReject : List (Move DraftCall) :=
  [.start (.approve ⟨"beta", "c1"⟩), .start (.reject ⟨"beta", "c1"⟩), .advance 0, .advance 0, .advance 0,
    .advance 1, .advance 1, .advance 0, .advance 0, .advance 0, .advance 0, .advance 0, .advance 1, .advance 1]

theorem race_disagrees :
    ¬ ∀ config, DecisionsReach plainWire String.toLower (DecidesOn racedChunk) racedStore config →
      config.Quiescent → StatusAgrees plainWire String.toLower racedChunk config.state := by
  intro claimed
  have reached : DecisionsReach plainWire String.toLower (DecidesOn racedChunk) racedStore
      (playDecisions approveThenReject) := by
    apply reachable_play
    · exact fun op state => rfl
    · apply Config.admitted_of_starts
      intro call member config
      simp only [approveThenReject, List.mem_cons, Move.start.injEq, reduceCtorEq, List.not_mem_nil,
        or_false] at member
      rcases member with first | second
      · rw [first]
        exact ⟨rfl, rfl⟩
      · rw [second]
        exact ⟨rfl, rfl⟩
  have ended : (playDecisions approveThenReject).threads.all (fun thread => thread.program.finished) = true := by
    decide +kernel
  have allowed : (currentPolicy plainWire (playDecisions approveThenReject).state "sb").toOption.any
      (fun now => racedChunk.grant ∈ granted String.toLower now) = true := by decide +kernel
  have status : ((playDecisions approveThenReject).state.chunks.lookup "c1").map DraftChunkRecord.status =
      some .rejected := by decide +kernel
  have granting : (playDecisions approveThenReject).state.Grants plainWire String.toLower racedChunk := by
    unfold Store.Grants
    cases current : currentPolicy plainWire (playDecisions approveThenReject).state racedChunk.sandboxId with
    | error text =>
      rw [show racedChunk.sandboxId = "sb" from rfl] at current
      rw [current] at allowed
      cases allowed
    | ok now =>
      rw [show racedChunk.sandboxId = "sb" from rfl] at current
      rw [current] at allowed
      exact ⟨now, rfl, of_decide_eq_true allowed⟩
  obtain ⟨row, found, approved⟩ := (claimed _ reached (List.all_eq_true.mp ended)).mp granting
  rw [show racedChunk.id = "c1" from rfl] at found
  rw [found, Option.map_some, approved] at status
  cases status

def approveTwice : List (Move DraftCall) :=
  [.start (.approve ⟨"beta", "c1"⟩), .start (.approve ⟨"beta", "c1"⟩), .advance 0, .advance 0, .advance 0,
    .advance 1, .advance 1, .advance 1, .advance 0, .advance 0, .advance 0, .advance 0, .advance 0,
    .advance 1, .advance 1, .advance 1, .advance 1, .advance 1]

theorem approveTwice_agrees :
    StatusAgrees plainWire String.toLower racedChunk (playDecisions approveTwice).state := by
  have proposes : ProposesGrant plainWire String.toLower racedChunk := by
    intro rule decoded
    cases decoded
    decide +kernel
  have owner : NamesOwner racedStore racedChunk "beta" := by
    intro sandbox found
    cases found
    rfl
  have ended : (playDecisions approveTwice).threads.all (fun thread => thread.program.finished) = true := by
    decide +kernel
  apply status_agrees racedStore_undecided proposes _ (List.all_eq_true.mp ended)
  apply reachable_play
  · exact fun op state => rfl
  · refine ⟨⟨rfl, owner, .granting, rfl, ?_⟩, ⟨rfl, owner, .granting, rfl, ?_⟩, True.intro⟩
    · intro thread member
      cases member
    · intro thread member
      rw [List.mem_singleton.mp member]
      exact Or.inr rfl

end Example

end OpenShell.Server
