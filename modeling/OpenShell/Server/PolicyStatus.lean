import OpenShell.Server.Sends
import OpenShell.Server.Report
import OpenShell.Server.Revisions
import OpenShell.Server.Rules

namespace OpenShell.Server

open OpenShell.Policy Effects Effects.Fallible Relational

variable {Blob : Type}

inductive StatusCall where
  | approve (request : ChunkRequest)
  | approveAll (request : ApproveAllDraftChunksRequest)
  | reject (request : ChunkRequest)
  | undo (request : ChunkRequest)
  | update (submitted : SandboxPolicyUpdate)
  | report (request : ReportPolicyStatusRequest)

namespace Store

def currentVersion (store : Store Blob) (sandboxId : String) : Nat :=
  (store.getSandbox sandboxId).elim 0 (fun sandbox => sandbox.currentPolicyVersion.toNat)

/-- Every loaded revision of the sandbox is the one its record calls current. -/
structure LoadedAgrees (store : Store Blob) (sandboxId : String) : Prop where
  recorded : (store.getSandbox sandboxId).isSome = true
  current : ∀ record ∈ store.policies, record.sandboxId = sandboxId → record.status = .loaded →
    record.version = store.currentVersion sandboxId

def LoadedAt (sandboxId : String) (version : Nat) (store : Store Blob) : Prop :=
  store.LoadedAgrees sandboxId ∧ store.currentVersion sandboxId = version

variable {sandboxId : String} {version : Nat} {store after : Store Blob}

theorem LoadedAt.transfer (agrees : store.LoadedAt sandboxId version)
    (recorded : (after.getSandbox sandboxId).isSome = true)
    (same : after.currentVersion sandboxId = store.currentVersion sandboxId)
    (policies : ∀ record ∈ after.policies, record.sandboxId = sandboxId → record.status = .loaded →
      ∃ old ∈ store.policies, old.sandboxId = sandboxId ∧ old.status = .loaded ∧
        old.version = record.version) : after.LoadedAt sandboxId version := by
  refine ⟨⟨recorded, ?_⟩, same.trans agrees.2⟩
  intro record member owner loaded
  obtain ⟨old, oldMember, oldOwner, oldLoaded, oldVersion⟩ := policies record member owner loaded
  rw [same, ← oldVersion]
  exact agrees.1.current old oldMember oldOwner oldLoaded

theorem LoadedAt.frame (agrees : store.LoadedAt sandboxId version)
    (sandboxes : after.sandboxes = store.sandboxes) (policies : after.policies = store.policies) :
    after.LoadedAt sandboxId version := by
  have records : after.getSandbox sandboxId = store.getSandbox sandboxId := by
    unfold getSandbox
    rw [sandboxes]
  apply agrees.transfer
  · rw [records]
    exact agrees.1.recorded
  · unfold currentVersion
    rw [records]
  · intro record member owner loaded
    rw [policies] at member
    exact ⟨record, member, owner, loaded, rfl⟩

theorem LoadedAt.supersede (agrees : store.LoadedAt sandboxId version) (owner : String) (bound : Nat) :
    (store.supersedeOlderPolicies owner bound).LoadedAt sandboxId version := by
  refine agrees.transfer agrees.1.recorded rfl ?_
  intro record member ownerOf loaded
  obtain ⟨old, oldMember, same⟩ := mem_supersedeOlderPolicies.mp member
  subst same
  -- A row that was changed is not loaded any more.
  have unchanged : supersedeRow owner bound old = old := by
    unfold supersedeRow at loaded ⊢
    split at loaded
    · cases loaded
    · rename_i kept
      rw [if_neg kept]
  rw [unchanged] at ownerOf loaded ⊢
  exact ⟨old, oldMember, ownerOf, loaded, rfl⟩

theorem LoadedAt.put (agrees : store.LoadedAt sandboxId version) {owner hash : String} {next : Nat}
    {payload : Blob} (written : store.putPolicyRevision owner next payload hash = .ok after) :
    after.LoadedAt sandboxId version := by
  obtain ⟨rows, frame⟩ := putPolicyRevision_ok written
  have sandboxes : after.getSandbox sandboxId = store.getSandbox sandboxId := by
    rw [frame]
    rfl
  apply agrees.transfer
  · rw [sandboxes]
    exact agrees.1.recorded
  · unfold currentVersion
    rw [sandboxes]
  · intro record member ownerOf loaded
    rw [Table.mem_rows, rows] at member
    rcases List.mem_append.mp member with earlier | added
    · exact ⟨record, earlier, ownerOf, loaded, rfl⟩
    · rw [List.mem_singleton.mp added] at loaded
      cases loaded

theorem LoadedAt.exec (agrees : store.LoadedAt sandboxId version) {op : StoreOp Blob}
    (quiet : op.quiet = true) : (Store.exec op store).2.LoadedAt sandboxId version := by
  cases op with
  | putSettings scope name payload =>
    simp only [Store.exec, write]
    cases written : store.putSettings scope name payload with
    | ok result => exact agrees.frame (putSettings_frame written).2 (putSettings_frame written).1
    | error text => exact agrees
  | putPolicyRevision owner next payload hash =>
    simp only [Store.exec, write]
    cases written : store.putPolicyRevision owner next payload hash with
    | ok result => exact agrees.put written
    | error text => exact agrees
  | supersedeOlderPolicies owner bound => exact agrees.supersede owner bound
  | putSandbox message => cases quiet
  | updatePolicyStatus _ _ _ _ _ => cases quiet
  | updateDraftChunkStatus id status decidedAtMs => exact agrees.frame rfl rfl
  | updateDraftChunkRule id rule => exact agrees.frame rfl rfl
  | deleteDraftChunks owner status => exact agrees.frame rfl rfl
  | _ => exact agrees

theorem LoadedAt.putSandbox (agrees : store.LoadedAt sandboxId version) {message held : Sandbox}
    (written : store.putSandbox message = .ok after)
    (present : store.getSandbox message.id = some held)
    (sameVersion : message.currentPolicyVersion = held.currentPolicyVersion) : after.LoadedAt sandboxId version := by
  obtain ⟨record, policies⟩ := getSandbox_putSandbox written present sandboxId
  apply agrees.transfer
  · rw [record]
    split
    · rfl
    · exact agrees.1.recorded
  · unfold currentVersion
    rw [record]
    split
    · rename_i same
      rw [same, present]
      simp only [Option.elim_some, sameVersion]
    · rfl
  · intro revision member owner loaded
    rw [policies] at member
    exact ⟨revision, member, owner, loaded, rfl⟩

end Store

/-! Calls that write revisions leave the current version alone. -/

variable {wire : Wire Blob} {lower : String → String} {sandboxId : String} {version : Nat}
  {store : Store Blob}

theorem leaves_of_quiet {α : Type} {program : Handler Blob α} (quiet : Quiet program)
    (agrees : store.LoadedAt sandboxId version) : Leaves (Store.LoadedAt sandboxId version) program store :=
  Requests.run_preserves (I := storeInterface Blob) Store.exec quiet.requests
    (fun _ _ permitted held => held.exec permitted) agrees

theorem leaves_checkBaseline (agrees : store.LoadedAt sandboxId version) {sandbox : Sandbox}
    (present : store.getSandbox sandbox.id = some sandbox) (spec : SandboxSpec) (policy : SandboxPolicy) :
    Leaves (Store.LoadedAt sandboxId version) (checkBaseline sandbox spec policy) store := by
  unfold checkBaseline
  split
  · apply leaves_of_quiet _ agrees
    apply Sends.bind (Sends.lift _)
    intro _
    exact Sends.lift _
  · obtain ⟨result, written⟩ : ∃ result, store.putSandbox
        { sandbox with spec := some { spec with policy := some policy } } = .ok result :=
      Store.putSandbox_present present
    unfold Leaves
    rw [run_ask_bind]
    simp only [Store.exec, written, Store.write]
    exact agrees.putSandbox written present rfl

theorem leaves_update (agrees : store.LoadedAt sandboxId version) (submitted : SandboxPolicyUpdate) :
    Leaves (Store.LoadedAt sandboxId version) (handleUpdateConfig wire submitted.request) store := by
  apply Leaves.guard agrees
  intro single
  apply Leaves.guard agrees
  intro _
  have noSetting : (!submitted.request.key.isEmpty) = false := by
    simpa [submitted.carriesPolicy] using single
  rw [submitted.sandboxScoped]
  simp only [Bool.false_eq_true, if_false, noSetting]
  apply Leaves.guard agrees
  intro _
  apply Leaves.fetchSandbox agrees
  intro sandbox found
  apply Leaves.orElse agrees
  intro given _
  unfold Leaves loadGlobalSettings
  rw [run_loadSettingsRecord_bind]
  apply Leaves.guard agrees
  intro _
  apply Leaves.orElse agrees
  intro spec _
  apply Leaves.bind
  · exact leaves_checkBaseline agrees (Store.getSandbox_of_name found) spec _
  · intro _ after _ held
    exact leaves_of_quiet (quiet_writeUpdate wire sandbox.id _) held

/-! What a report does. -/

section Report

variable {request : ReportPolicyStatusRequest}

theorem Store.LoadedAt.updateStatus (agrees : store.LoadedAt sandboxId version) {owner : String}
    {reportedVersion : Nat} {status : PolicyStatus} {loadError : Option String} {loadedAtMs : Option Int}
    (harmless : status ≠ .loaded ∨ owner ≠ sandboxId ∨
      store.policies.lookup (owner, reportedVersion) = none) :
    (store.updatePolicyStatus owner reportedVersion status loadError loadedAtMs).LoadedAt
      sandboxId version := by
  refine agrees.transfer agrees.1.recorded rfl ?_
  intro record member ownerOf loaded
  obtain ⟨old, oldMember, same⟩ := Store.mem_updatePolicyStatus.mp member
  by_cases named : old.sandboxId = owner ∧ old.version = reportedVersion
  · rw [if_pos named] at same
    subst same
    rcases harmless with failed | foreign | missing
    · exact absurd loaded failed
    · exact absurd (named.1.symm.trans ownerOf) foreign
    · have key : old.key = (owner, reportedVersion) := by
        rw [← named.1, ← named.2]
        rfl
      exact absurd key (Table.lookup_none.mp missing old oldMember)
  · rw [if_neg named] at same
    subst same
    exact ⟨record, oldMember, ownerOf, loaded, rfl⟩

theorem loaded_after_report (agrees : store.LoadedAt sandboxId version) {reportedVersion : Nat}
    {loadedAtMs : Option Int} (ordered : version ≤ reportedVersion) {record : PolicyRecord Blob}
    (member : record ∈ ((store.updatePolicyStatus sandboxId reportedVersion .loaded none
      loadedAtMs).supersedeOlderPolicies sandboxId reportedVersion).policies)
    (owner : record.sandboxId = sandboxId) (loaded : record.status = .loaded) :
    record.version = reportedVersion := by
  obtain ⟨updated, updatedMember, superseded⟩ := Store.mem_supersedeOlderPolicies.mp member
  obtain ⟨old, oldMember, same⟩ := Store.mem_updatePolicyStatus.mp updatedMember
  have kept : Store.superseded sandboxId reportedVersion updated = false := by
    by_contra selected
    rw [Bool.not_eq_false] at selected
    simp only [superseded, Store.supersedeRow, selected, if_true] at loaded
    cases loaded
  have unchanged : record = updated := by simp only [superseded, Store.supersedeRow, kept,
    Bool.false_eq_true, if_false]
  subst unchanged
  by_cases named : old.sandboxId = sandboxId ∧ old.version = reportedVersion
  · rw [if_pos named] at same
    rw [same]
    exact named.2
  · rw [if_neg named] at same
    subst same
    have current : record.version = version :=
      (agrees.1.current record oldMember owner loaded).trans agrees.2
    have recent : ¬ record.version < reportedVersion := by
      intro older
      simp [Store.superseded, owner, older, loaded] at kept
    omega

theorem leaves_recordLoaded (agrees : store.LoadedAt sandboxId version) {reportedVersion : UInt32}
    {loadedAtMs : Option Int} (ordered : version ≤ reportedVersion.toNat) :
    Leaves (Store.LoadedAt sandboxId reportedVersion.toNat) (recordLoaded sandboxId reportedVersion)
      (store.updatePolicyStatus sandboxId reportedVersion.toNat .loaded none loadedAtMs) := by
  obtain ⟨sandbox, present⟩ := Option.isSome_iff_exists.mp agrees.1.recorded
  have id := Store.getSandbox_id present
  let superseded := (store.updatePolicyStatus sandboxId reportedVersion.toNat .loaded none
    loadedAtMs).supersedeOlderPolicies sandboxId reportedVersion.toNat
  have held : superseded.getSandbox sandbox.id = some sandbox := by
    rw [id]
    exact present
  obtain ⟨result, written⟩ : ∃ result, superseded.putSandbox
      { sandbox with currentPolicyVersion := reportedVersion } = .ok result :=
    Store.putSandbox_present held
  have outcome : ((recordLoaded sandboxId reportedVersion).run Store.exec
      (store.updatePolicyStatus sandboxId reportedVersion.toNat .loaded none loadedAtMs)).2 = result := by
    have found : superseded.getSandbox sandboxId = some sandbox := present
    simp only [recordLoaded, run_ask_bind, Store.exec]
    rw [show ((store.updatePolicyStatus sandboxId reportedVersion.toNat .loaded none
      loadedAtMs).supersedeOlderPolicies sandboxId reportedVersion.toNat) = superseded from rfl, found]
    simp only [run_ask_bind, Store.exec, written, Store.write, run_pure]
  obtain ⟨record, policies⟩ := Store.getSandbox_putSandbox written held sandboxId
  have recorded : result.getSandbox sandboxId =
      some { sandbox with currentPolicyVersion := reportedVersion } := by
    rw [record, if_pos id.symm]
  have current : result.currentVersion sandboxId = reportedVersion.toNat := by
    unfold Store.currentVersion
    rw [recorded]
    rfl
  unfold Leaves
  rw [outcome]
  refine ⟨⟨by rw [recorded]; rfl, ?_⟩, current⟩
  intro revision member owner loaded
  rw [policies] at member
  rw [current]
  exact loaded_after_report agrees ordered member owner loaded

theorem leaves_recordLoaded_other (agrees : store.LoadedAt sandboxId version) {owner : String}
    (foreign : owner ≠ sandboxId) (reportedVersion : UInt32) :
    Leaves (Store.LoadedAt sandboxId version) (recordLoaded owner reportedVersion) store := by
  have superseded := agrees.supersede owner reportedVersion.toNat
  unfold Leaves recordLoaded
  simp only [run_ask_bind, Store.exec]
  cases present : (store.supersedeOlderPolicies owner reportedVersion.toNat).getSandbox owner with
  | none => exact superseded
  | some sandbox =>
    have id := Store.getSandbox_id present
    have held : (store.supersedeOlderPolicies owner reportedVersion.toNat).getSandbox sandbox.id =
        some sandbox := by
      rw [id]
      exact present
    obtain ⟨result, written⟩ : ∃ result,
        (store.supersedeOlderPolicies owner reportedVersion.toNat).putSandbox
          { sandbox with currentPolicyVersion := reportedVersion } = .ok result :=
      Store.putSandbox_present held
    obtain ⟨record, policies⟩ := Store.getSandbox_putSandbox written held sandboxId
    have untouched : result.getSandbox sandboxId =
        (store.supersedeOlderPolicies owner reportedVersion.toNat).getSandbox sandboxId := by
      rw [record, if_neg]
      intro same
      exact foreign (id.symm.trans same.symm)
    simp only [run_ask_bind, Store.exec, written, Store.write, run_pure]
    refine superseded.transfer ?_ ?_ ?_
    · rw [untouched]
      exact superseded.1.recorded
    · unfold Store.currentVersion
      rw [untouched]
    · intro revision member ownerOf loaded
      rw [policies] at member
      exact ⟨revision, member, ownerOf, loaded, rfl⟩

/-- The report names a loaded revision that is not older than the current one. -/
def ReportPolicyStatusRequest.InOrder (request : ReportPolicyStatusRequest) (sandboxId : String)
    (store : Store Blob) : Prop :=
  request.sandboxId = sandboxId → request.reported = some .loaded →
    (store.policies.lookup (sandboxId, request.version.toNat)).isSome = true →
    store.currentVersion sandboxId ≤ request.version.toNat

def Store.withReport (store : Store Blob) (request : ReportPolicyStatusRequest) (status : PolicyStatus) :
    Store Blob :=
  store.updatePolicyStatus request.sandboxId request.version.toNat status
    (if status = .failed && !request.loadError.isEmpty then some request.loadError else none)
    (if status = .loaded then some store.nowMs else none)

theorem run_loadTime_bind {β : Type} (status : PolicyStatus) (next : Option Int → Handler Blob β)
    (store : Store Blob) :
    (loadTime status >>= next).run Store.exec store =
      (next (if status = .loaded then some store.nowMs else none)).run Store.exec store := by
  unfold loadTime
  split
  · have read : (do let nowMs ← decisionTime; pure (some nowMs) : Handler Blob (Option Int)).run
        Store.exec store = (.ok (some store.nowMs), store) := rfl
    exact run_bind_of_ok read next
  · exact run_bind_of_ok rfl next

theorem run_report {status : PolicyStatus} (named : request.sandboxId.isEmpty = false)
    (nonzero : request.version ≠ 0) (reported : request.reported = some status) :
    (handleReportPolicyStatus request).run Store.exec store =
      if (store.policies.lookup (request.sandboxId, request.version.toNat)).isSome then
        if status = .loaded then
          (recordLoaded request.sandboxId request.version).run Store.exec (store.withReport request status)
        else (.ok (), store.withReport request status)
      else (.error ⟨.notFound, "policy revision not found"⟩, store.withReport request status) := by
  unfold handleReportPolicyStatus
  rw [run_guard_bind_pass (by rw [named]; rfl), run_guard_bind_pass (by simpa using nonzero), reported,
    run_orElse_some_bind, run_loadTime_bind, run_ask_bind]
  simp only [Store.exec, run_orInternal_ok_bind, run_guard_bind]
  split
  · split
    · rename_i loads
      simp only [Store.withReport, loads, if_true]
    · rename_i fails
      simp only [Store.withReport, fails, if_false, run_pure]
  · rfl

theorem report_refused (refused : request.sandboxId.isEmpty = true ∨ request.version = 0 ∨
    request.reported = none) : Refuses (handleReportPolicyStatus request) store := by
  apply Refuses.guard
  intro named
  apply Refuses.guard
  intro nonzero
  apply Refuses.orElse
  intro status reported
  rcases refused with empty | zero | unknown
  · simp [empty] at named
  · simp [zero] at nonzero
  · rw [unknown] at reported
    cases reported

theorem report_step (agrees : store.LoadedAt sandboxId version)
    (ordered : request.InOrder sandboxId store) :
    ∃ next, version ≤ next ∧
      Leaves (Store.LoadedAt sandboxId next) (handleReportPolicyStatus request) store := by
  by_cases refused : request.sandboxId.isEmpty = true ∨ request.version = 0 ∨ request.reported = none
  · refine ⟨version, Nat.le_refl _, ?_⟩
    obtain ⟨status, failed⟩ : Refuses (handleReportPolicyStatus request) store := report_refused refused
    unfold Leaves
    rw [failed]
    exact agrees
  simp only [not_or, Bool.not_eq_true] at refused
  obtain ⟨named, nonzero, accepted⟩ := refused
  obtain ⟨status, reported⟩ := Option.ne_none_iff_exists'.mp accepted
  unfold Leaves
  simp only [run_report named nonzero reported]
  cases known : store.policies.lookup (request.sandboxId, request.version.toNat) with
  | none =>
    refine ⟨version, Nat.le_refl _, ?_⟩
    exact agrees.updateStatus (Or.inr (Or.inr known))
  | some revision =>
    simp only [Option.isSome_some, if_true]
    by_cases loads : status = .loaded
    · rw [if_pos loads]
      by_cases own : request.sandboxId = sandboxId
      · have recent : version ≤ request.version.toNat := by
          rw [← agrees.2]
          apply ordered own
          · rw [reported, loads]
          · rw [← own, known]
            rfl
        refine ⟨request.version.toNat, recent, ?_⟩
        subst own loads
        exact leaves_recordLoaded agrees recent
      · refine ⟨version, Nat.le_refl _, ?_⟩
        exact leaves_recordLoaded_other (agrees.updateStatus (Or.inr (Or.inl own))) own request.version
    · rw [if_neg loads]
      refine ⟨version, Nat.le_refl _, ?_⟩
      exact agrees.updateStatus (Or.inl loads)

end Report

/-! Runs of calls. -/

variable (wire lower)

namespace StatusCall

def outcome (store : Store Blob) : StatusCall → Store Blob
  | approve request => ((handleApproveDraftChunk wire lower request).run Store.exec store).2
  | approveAll request => ((handleApproveAllDraftChunks wire lower request).run Store.exec store).2
  | reject request => ((handleRejectDraftChunk wire request).run Store.exec store).2
  | undo request => ((handleUndoDraftChunk wire request).run Store.exec store).2
  | update submitted => ((handleUpdateConfig wire submitted.request).run Store.exec store).2
  | report request => ((handleReportPolicyStatus request).run Store.exec store).2

def InOrder (sandboxId : String) (store : Store Blob) : StatusCall → Prop
  | report request => request.InOrder sandboxId store
  | _ => True

def outcomes (store : Store Blob) (calls : List StatusCall) : Store Blob :=
  calls.foldl (outcome wire lower) store

/-- Every loaded report of the run names the current version or a later one. -/
def AllInOrder (sandboxId : String) : Store Blob → List StatusCall → Prop
  | _, [] => True
  | store, call :: rest => call.InOrder sandboxId store ∧
      AllInOrder sandboxId (call.outcome wire lower store) rest

end StatusCall

structure OneLoaded (store : Store Blob) (sandboxId : String) : Prop where
  unique : ∀ first ∈ store.policies, ∀ second ∈ store.policies,
    first.sandboxId = sandboxId → second.sandboxId = sandboxId →
    first.status = .loaded → second.status = .loaded → first = second
  current : ∀ record ∈ store.policies, record.sandboxId = sandboxId → record.status = .loaded →
    store.currentVersion sandboxId = record.version

variable {wire lower}

theorem Store.LoadedAgrees.oneLoaded (agrees : store.LoadedAgrees sandboxId) :
    OneLoaded store sandboxId := by
  constructor
  · intro first firstIn second secondIn firstOwner secondOwner firstLoaded secondLoaded
    apply Table.eq_of_key firstIn secondIn
    have firstVersion := agrees.current first firstIn firstOwner firstLoaded
    have secondVersion := agrees.current second secondIn secondOwner secondLoaded
    unfold PolicyRecord.key
    rw [firstOwner, secondOwner, firstVersion, secondVersion]
  · intro record member owner loaded
    exact (agrees.current record member owner loaded).symm

theorem call_step {call : StatusCall} (agrees : store.LoadedAt sandboxId version)
    (ordered : call.InOrder sandboxId store) :
    ∃ next, version ≤ next ∧ (call.outcome wire lower store).LoadedAt sandboxId next := by
  cases call with
  | approve request => exact ⟨version, Nat.le_refl _, leaves_of_quiet (quiet_approve wire lower request) agrees⟩
  | approveAll request =>
    exact ⟨version, Nat.le_refl _, leaves_of_quiet (quiet_approveAll wire lower request) agrees⟩
  | reject request => exact ⟨version, Nat.le_refl _, leaves_of_quiet (quiet_reject wire request) agrees⟩
  | undo request => exact ⟨version, Nat.le_refl _, leaves_of_quiet (quiet_undo wire request) agrees⟩
  | update submitted => exact ⟨version, Nat.le_refl _, leaves_update agrees submitted⟩
  | report request => exact report_step agrees ordered

theorem calls_run {calls : List StatusCall} (agrees : store.LoadedAt sandboxId version)
    (ordered : StatusCall.AllInOrder wire lower sandboxId store calls) :
    ∃ next, version ≤ next ∧ (StatusCall.outcomes wire lower store calls).LoadedAt sandboxId next := by
  induction calls generalizing store version with
  | nil => exact ⟨version, Nat.le_refl _, agrees⟩
  | cons call rest ih =>
    obtain ⟨middle, before, kept⟩ := call_step agrees ordered.1
    obtain ⟨next, after, reached⟩ := ih kept ordered.2
    exact ⟨next, Nat.le_trans before after, reached⟩

theorem allInOrder_append {first later : List StatusCall}
    (ordered : StatusCall.AllInOrder wire lower sandboxId store (first ++ later)) :
    StatusCall.AllInOrder wire lower sandboxId store first ∧
      StatusCall.AllInOrder wire lower sandboxId (StatusCall.outcomes wire lower store first) later := by
  induction first generalizing store with
  | nil => exact ⟨True.intro, ordered⟩
  | cons call rest ih =>
    obtain ⟨before, after⟩ := ih ordered.2
    exact ⟨⟨ordered.1, before⟩, after⟩

/-- In a run whose loaded reports come in order, every state has at most one loaded revision, which is
    the current one, and the current version never goes back. -/
theorem status_run (start : Store Blob) (sandboxId : String) (first later : List StatusCall)
    (recorded : (start.getSandbox sandboxId).isSome = true) (agrees : OneLoaded start sandboxId)
    (ordered : StatusCall.AllInOrder wire lower sandboxId start (first ++ later)) :
    OneLoaded (StatusCall.outcomes wire lower start first) sandboxId ∧
      (StatusCall.outcomes wire lower start first).currentVersion sandboxId ≤
        (StatusCall.outcomes wire lower start (first ++ later)).currentVersion sandboxId := by
  have begins : start.LoadedAt sandboxId (start.currentVersion sandboxId) :=
    ⟨⟨recorded, fun record member owner loaded => (agrees.current record member owner loaded).symm⟩, rfl⟩
  obtain ⟨early, late⟩ := allInOrder_append ordered
  obtain ⟨middle, _, reached⟩ := calls_run begins early
  obtain ⟨next, after, ends⟩ := calls_run reached late
  refine ⟨reached.1.oneLoaded, ?_⟩
  have split : StatusCall.outcomes wire lower start (first ++ later) =
      StatusCall.outcomes wire lower (StatusCall.outcomes wire lower start first) later := by
    unfold StatusCall.outcomes
    exact List.foldl_append
  rw [split, reached.2, ends.2]
  exact after

section Example

def freshStore : Store Message :=
  { sandboxes := ⟨[⟨"beta", { id := "sb", name := "beta", spec := some {} }⟩], by decide⟩ }

def submit (version : UInt32) : StatusCall :=
  .update ⟨{ name := "beta", policy := some { version := version } }, rfl, rfl⟩

def reportLoaded (version : UInt32) : StatusCall :=
  .report { sandboxId := "sb", version := version, status := 2 }

/-- Two revisions are written and loaded, and the report on the first arrives late. -/
def lateReport : List StatusCall := [submit 1, submit 2, reportLoaded 2, reportLoaded 1]

theorem lateReport_loaded :
    ((StatusCall.outcomes plainWire String.toLower freshStore lateReport).policies.rows.filter
      fun record => record.sandboxId = "sb" ∧ record.status = .loaded).map PolicyRecord.version =
        [1, 2] := by
  decide +kernel

theorem late_report_breaks :
    ¬ ∀ first later : List StatusCall,
      OneLoaded (StatusCall.outcomes plainWire String.toLower freshStore first) "sb" ∧
        (StatusCall.outcomes plainWire String.toLower freshStore first).currentVersion "sb" ≤
          (StatusCall.outcomes plainWire String.toLower freshStore (first ++ later)).currentVersion "sb" := by
  intro claimed
  have versions := lateReport_loaded
  have loaded : ∀ version ∈ [1, 2], version =
      (StatusCall.outcomes plainWire String.toLower freshStore lateReport).currentVersion "sb" := by
    intro version member
    rw [← versions] at member
    obtain ⟨record, kept, same⟩ := List.mem_map.mp member
    obtain ⟨rowIn, owned⟩ := List.mem_filter.mp kept
    simp only [decide_eq_true_eq] at owned
    rw [← same]
    exact ((claimed lateReport []).1.current record rowIn owned.1 owned.2).symm
  have first := loaded 1 (by simp)
  have second := loaded 2 (by simp)
  omega

theorem reports_in_order :
    OneLoaded (StatusCall.outcomes plainWire String.toLower freshStore
        [submit 1, reportLoaded 1, submit 2]) "sb" ∧
      (StatusCall.outcomes plainWire String.toLower freshStore
        [submit 1, reportLoaded 1, submit 2]).currentVersion "sb" ≤
        (StatusCall.outcomes plainWire String.toLower freshStore
          ([submit 1, reportLoaded 1, submit 2] ++ [reportLoaded 2])).currentVersion "sb" := by
  apply status_run freshStore "sb" [submit 1, reportLoaded 1, submit 2] [reportLoaded 2]
  · rfl
  · constructor
    · intro first member
      cases member
    · intro record member
      cases member
  · have bounds :
        (StatusCall.outcomes plainWire String.toLower freshStore [submit 1]).currentVersion "sb" ≤ 1 ∧
        (StatusCall.outcomes plainWire String.toLower freshStore
          [submit 1, reportLoaded 1, submit 2]).currentVersion "sb" ≤ 2 := by decide +kernel
    exact ⟨True.intro, fun _ _ _ => bounds.1, True.intro, fun _ _ _ => bounds.2, True.intro⟩

end Example

end OpenShell.Server
