import OpenShell.Server.WriterContract

namespace OpenShell.Server

open OpenShell.Policy Effects Effects.Fallible Relational

variable {Blob α : Type} {wire : Wire Blob} {lower : String → String} {call : WriterCall Blob}
  {sandboxId : String}

def SafeCall (wire : Wire Blob) (lower : String → String) (call : WriterCall Blob)
    (program : Handler Blob α) (known : Store Blob → Prop) : Prop :=
  (writerContract wire lower).Safe (fun op store => store.Performs op) call program known

/-- What a writer knows after it has read the newest revision, also when it is not the newest any
    more. -/
def Store.Basis (sandboxId : String) (latest : Option (PolicyRecord Blob)) (store : Store Blob) : Prop :=
  store.WrittenUpTo sandboxId (latest.elim 0 PolicyRecord.version) ∧
    ∀ record, latest = some record → store.HasRevision sandboxId record.version record.policyPayload

theorem basis_grows {latest : Option (PolicyRecord Blob)} {store after : Store Blob}
    (grown : store.Grows after) (basis : store.Basis sandboxId latest) : after.Basis sandboxId latest := by
  refine ⟨?_, fun record same => grown _ _ _ (basis.2 record same)⟩
  intro version positive bound
  obtain ⟨payload, held⟩ := basis.1 version positive bound
  exact ⟨payload, grown _ _ _ held⟩

theorem basis_stable (latest : Option (PolicyRecord Blob)) :
    (writerContract wire lower).Stable (Store.Basis sandboxId latest) :=
  fun _ _ _ basis grown => basis_grows grown basis

theorem basis_of_latest {store : Store Blob} (contiguous : store.Contiguous) :
    store.Basis sandboxId (store.getLatestPolicy sandboxId) := by
  cases found : store.getLatestPolicy sandboxId with
  | none =>
    refine ⟨?_, fun record same => by cases same⟩
    intro version positive bound
    simp only [Option.elim_none] at bound
    omega
  | some record =>
    obtain ⟨member, owned, _⟩ := Table.latest_some found
    have owner : record.sandboxId = sandboxId := by simpa using owned
    have held : store.HasRevision sandboxId record.version record.policyPayload :=
      ⟨record, member, by rw [← owner]; rfl, rfl⟩
    obtain ⟨newest, versions⟩ := contiguous sandboxId
    have bound := (versions record.version).mp ⟨_, held⟩
    refine ⟨?_, fun other same => by cases same; exact held⟩
    intro version positive below
    simp only [Option.elim_some] at below
    exact (versions version).mpr ⟨positive, by omega⟩

theorem SafeCall.after {β : Type} {first : Handler Blob α} {next : α → Handler Blob β}
    {known : Store Blob → Prop} (sends : Sends (fun op => op.inserts = false) first)
    (stable : (writerContract wire lower).Stable known)
    (rest : ∀ value, SafeCall wire lower call (next value) known) :
    SafeCall wire lower call (first >>= next) known := by
  apply Contract.Safe.after sends.requests
  · exact silent_keeps
  · exact stable
  · intro result
    cases result with
    | ok value => exact rest value
    | error status => exact True.intro

theorem SafeCall.getLatest {next : Except String (Option (PolicyRecord Blob)) → Handler Blob α}
    (rest : ∀ latest, SafeCall wire lower call (next (.ok latest)) (Store.Basis sandboxId latest))
    (failed : ∀ text, SafeCall wire lower call (next (.error text)) (fun _ => True)) :
    SafeCall wire lower call (ask (.getLatestPolicy sandboxId) >>= next) (fun _ => True) := by
  intro state answer after contiguous _ performed
  have kept : after.Contiguous ∧ state.Grows after ∧
      call.Records wire lower ⟨.getLatestPolicy sandboxId, answer⟩ after :=
    silent_keeps (.getLatestPolicy sandboxId) state answer after rfl contiguous performed
  obtain ⟨invariant, grown, recorded⟩ := kept
  refine ⟨invariant, grown, recorded, ?_⟩
  rcases performed with executed | ⟨text, failure, _⟩
  · have read : answer = .ok (state.getLatestPolicy sandboxId) := congrArg Prod.fst executed.symm
    subst read
    exact ⟨_, basis_stable _, basis_grows grown (basis_of_latest contiguous), rest _⟩
  · subst failure
    exact ⟨_, (Discipline.stable_true _), True.intro, failed text⟩

theorem SafeCall.insert {latest : Option (PolicyRecord Blob)} {version : Nat} {payload : Blob}
    {hash : String} {next : Except String Unit → Handler Blob α}
    (following : version = latest.elim 0 PolicyRecord.version + 1)
    (accounts : ∀ store : Store Blob, store.Basis sandboxId latest →
      call.Accounts wire lower sandboxId version payload store)
    (rest : ∀ answer, SafeCall wire lower call (next answer) (fun _ => True)) :
    SafeCall wire lower call (ask (.putPolicyRevision sandboxId version payload hash) >>= next)
      (Store.Basis sandboxId latest) := by
  subst following
  intro state answer after contiguous basis performed
  cases outcome : answer with
  | ok value =>
    -- Only a statement that was carried out answers with `Ok`.
    have written : state.putPolicyRevision sandboxId (latest.elim 0 PolicyRecord.version + 1) payload hash =
        .ok after := by
      rcases performed with executed | ⟨text, failure, _⟩
      · simp only [Store.exec, Store.write] at executed
        split at executed
        · rename_i result inserted
          rw [inserted, (Prod.mk.inj executed).2]
        · rw [outcome] at executed
          cases executed
      · rw [outcome] at failure
        cases failure
    have grown := grows_put written
    refine ⟨contiguous_put contiguous basis.1 written, grown, ?_, _, (Discipline.stable_true _), True.intro, rest _⟩
    intro owner version content digest same
    obtain ⟨rfl, rfl, rfl, _⟩ : sandboxId = owner ∧ latest.elim 0 PolicyRecord.version + 1 = version ∧
        payload = content ∧ hash = digest := by simpa [inserted] using congrArg Event.op same
    refine ⟨(hasRevision_put written).mpr (Or.inr ⟨rfl, rfl⟩), ?_⟩
    exact accounts after (basis_grows grown basis)
  | error text =>
    have unchanged : after = state := by
      rcases performed with executed | ⟨_, _, same⟩
      · simp only [Store.exec, Store.write] at executed
        split at executed
        · rw [outcome] at executed
          cases executed
        · exact (Prod.mk.inj executed).2.symm
      · exact same
    subst unchanged
    refine ⟨contiguous, fun _ _ _ held => held, ?_, _, (Discipline.stable_true _), True.intro, rest _⟩
    exact records_of_unwritten rfl

theorem SafeCall.finish {program : Handler Blob α} {known : Store Blob → Prop}
    (safe : SafeCall wire lower call program known) :
    SafeCall wire lower call (program >>= fun _ => (pure () : Handler Blob Unit)) known := by
  apply Contract.Safe.map safe
  intro result
  cases result with
  | ok value => exact ⟨_, rfl⟩
  | error status => exact ⟨_, rfl⟩

theorem SafeCall.putRevision {latest : Option (PolicyRecord Blob)} {policy : SandboxPolicy}
    {next : Option (Nat × String) → Handler Blob α}
    (accounts : ∀ store : Store Blob, store.Basis sandboxId latest →
      call.Accounts wire lower sandboxId (latest.elim 0 PolicyRecord.version + 1)
        (wire.encodePolicy policy) store)
    (rest : ∀ written, SafeCall wire lower call (next written) (fun _ => True)) :
    SafeCall wire lower call
      (putRevision wire sandboxId (latest.elim 0 PolicyRecord.version + 1) policy >>= next)
      (Store.Basis sandboxId latest) := by
  unfold OpenShell.Server.putRevision
  rw [bind_assoc]
  apply SafeCall.insert rfl accounts
  intro answer
  cases answer with
  | ok _ =>
    rw [bind_assoc]
    apply SafeCall.after (Sends.ask rfl) (Discipline.stable_true _)
    intro _
    exact rest _
  | error text =>
    by_cases conflict : isConflict text
    · simp only [conflict, if_true]
      exact rest none
    · simp only [conflict]
      exact True.intro

theorem safe_mergeAttempts {chunk : DraftChunkRecord Blob} {rule : NetworkPolicyRule}
    (decodedRule : wire.decodeRule chunk.proposedRule = .ok rule) (attempts : Nat) :
    SafeCall wire lower (.merge sandboxId chunk) (mergeAttempts wire lower sandboxId chunk rule attempts)
      (fun _ => True) := by
  induction attempts with
  | zero => exact True.intro
  | succ attempts ih =>
    unfold mergeAttempts
    apply SafeCall.getLatest
    · intro latest
      rw [orInternal_ok_bind]
      apply mergeBase_rule wire (SafeCall wire lower (.merge sandboxId chunk) · (Store.Basis sandboxId latest))
      · intro status
        exact True.intro
      · intro policy decoded
        apply SafeCall.putRevision
        · intro store basis
          refine ⟨rfl, _, rule, policy, rfl, decodedRule, ?_, rfl⟩
          cases latest with
          | none => exact Or.inl ⟨rfl, (Except.ok.inj decoded).symm⟩
          | some record => exact Or.inr ⟨_, basis.2 record rfl, decoded⟩
        · intro written
          cases written with
          | none => exact ih
          | some revision => exact True.intro
    · intro text
      exact True.intro

theorem safe_removeAttempts {chunk : DraftChunkRecord Blob} (attempts : Nat) :
    SafeCall wire lower (.remove sandboxId chunk) (removeAttempts wire sandboxId chunk attempts)
      (fun _ => True) := by
  induction attempts with
  | zero => exact True.intro
  | succ attempts ih =>
    unfold removeAttempts
    apply SafeCall.getLatest
    · intro latest
      cases latest with
      | none => exact True.intro
      | some record =>
        cases decoded : wire.decodePolicy record.policyPayload with
        | error text =>
          rw [orInternal_ok_bind, orElse_some_bind, decoded, orInternal_error_bind]
          exact True.intro
        | ok policy =>
          rw [orInternal_ok_bind, orElse_some_bind, decoded, orInternal_ok_bind]
          apply SafeCall.putRevision
          · intro store basis
            exact ⟨rfl, record.version, policy, _, rfl, basis.2 record rfl, decoded, rfl⟩
          · intro written
            cases written with
            | none => exact ih
            | some revision => exact True.intro
    · intro text
      exact True.intro

/-! The update path. -/

abbrev Silent (program : Handler Blob α) : Prop := Sends (fun op => op.inserts = false) program

theorem SafeCall.silent {program : Handler Blob α} (sends : Silent program) :
    SafeCall wire lower call program (fun _ => True) :=
  Contract.Safe.of_requests sends.requests silent_keeps (Discipline.stable_true _)

theorem silent_checkBaseline (sandbox : Sandbox) (spec : SandboxSpec) (policy : SandboxPolicy) :
    Silent (checkBaseline sandbox spec policy : Handler Blob Unit) := by
  unfold checkBaseline
  split
  · refine Sends.bind (Sends.lift _) ?_
    intro _
    exact Sends.lift _
  · refine Sends.bind (Sends.ask rfl) ?_
    intro answer
    exact Sends.orInternal _ _

theorem safe_writeUpdate {request : UpdateConfigRequest} {sandboxScoped : request.global = false}
    (policy : SandboxPolicy) :
    SafeCall wire lower (.update request sandboxScoped) (writeUpdate wire sandboxId policy)
      (fun _ => True) := by
  unfold writeUpdate
  apply SafeCall.getLatest
  · intro latest
    rw [orInternal_ok_bind]
    simp only
    split
    · exact True.intro
    · have following : latest.elim 1 (fun record => record.version + 1) =
          latest.elim 0 PolicyRecord.version + 1 := by cases latest <;> rfl
      unfold persistRevision
      simp only
      rw [bind_assoc]
      apply SafeCall.insert following
      · intro store basis
        exact True.intro
      · intro answer
        cases answer with
        | error text => exact True.intro
        | ok _ =>
          apply SafeCall.silent
          refine Sends.bind (Sends.pure _) ?_
          intro nextVersion
          refine Sends.bind (Sends.ask rfl) ?_
          intro _
          exact Sends.pure _
  · intro text
    exact True.intro

theorem handleUpdateConfig_scoped (property : {β : Type} → Handler Blob β → Prop)
    (after : ∀ {β γ : Type} {first : Handler Blob β} {next : β → Handler Blob γ}, Silent first →
      (∀ value, property (next value)) → property (first >>= next))
    (silent : ∀ {β : Type} {program : Handler Blob β}, Silent program → property program)
    (inserts : ∀ owner policy, property (writeUpdate wire owner policy))
    {request : UpdateConfigRequest} (sandboxScoped : request.global = false) :
    property (handleUpdateConfig wire request) := by
  unfold handleUpdateConfig
  apply after (Sends.guard _ _)
  intro _
  apply after (Sends.guard _ _)
  intro _
  rw [sandboxScoped]
  simp only [Bool.false_eq_true, if_false]
  apply after (Sends.guard _ _)
  intro _
  apply after (Sends.fetchSandbox rfl)
  intro sandbox
  split
  · exact silent (Sends.updateSandboxSetting (fun _ => rfl) (fun _ _ _ => rfl) request sandbox)
  · unfold updateSandboxPolicy
    apply after (Sends.orElse _ _)
    intro given
    apply after (Sends.loadSettingsRecord rfl)
    intro globalSettings
    apply after (Sends.guard _ _)
    intro _
    apply after (Sends.orElse _ _)
    intro spec
    apply after (silent_checkBaseline sandbox spec _)
    intro _
    exact inserts sandbox.id _

theorem safe_body (call : WriterCall Blob) :
    SafeCall wire lower call (call.body wire lower) (fun _ => True) := by
  cases call with
  | merge sandboxId chunk =>
    apply SafeCall.finish
    unfold mergeChunkIntoPolicy
    cases decoded : wire.decodeRule chunk.proposedRule with
    | error text => exact True.intro
    | ok rule => exact safe_mergeAttempts decoded mergeRetryLimit
  | remove sandboxId chunk =>
    apply SafeCall.finish
    exact safe_removeAttempts mergeRetryLimit
  | update request sandboxScoped =>
    apply SafeCall.finish
    apply handleUpdateConfig_scoped fun program =>
      SafeCall wire lower (.update request sandboxScoped) program (fun _ => True)
    · intro β γ first next sends rest
      exact SafeCall.after sends (Discipline.stable_true _) rest
    · intro β program sends
      exact SafeCall.silent sends
    · intro owner policy
      exact safe_writeUpdate policy
    · exact sandboxScoped

end OpenShell.Server
