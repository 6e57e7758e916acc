import OpenShell.Lib.Faults
import OpenShell.Server.SafePolicies
import OpenShell.Server.WriterContract

namespace OpenShell.Server

open OpenShell.Policy Effects Effects.Fallible Relational

variable {Blob α β : Type}

/-! What an update of a sandbox policy leaves behind when one of its statements fails. -/

/-- The statements that `faults` names fail, each with a text of its own. -/
def Handler.runWith (program : Handler Blob α) (faults : Faults String) (store : Store Blob) :
    Except Status α × (Faults String × Store Blob) :=
  program.run (Faults.execute StoreOp.failure Store.exec) (faults, store)

/-- An error leaves the store as it was. -/
def UnchangedOnError (program : Handler Blob α) (faults : Faults String) (store : Store Blob) : Prop :=
  ∀ status rest after, program.runWith faults store = (.error status, (rest, after)) → after = store

section Rules

variable {faults : Faults String} {store : Store Blob} {status : Status}

theorem runWith_ask_fault {op : StoreOp Blob} {text : String} (fault : faults 0 = some text)
    (next : op.Answer → Handler Blob β) :
    Handler.runWith (ask op >>= next) faults store = (next (op.failure text)).runWith (faults.later 1) store := by
  unfold Handler.runWith
  rw [show (ask op >>= next) = (perform (I := storeInterface Blob) op >>= next) from rfl, run_perform_bind,
    Faults.execute_fault fault]

theorem runWith_ask_clear {op : StoreOp Blob} (clear : faults 0 = none) (next : op.Answer → Handler Blob β) :
    Handler.runWith (ask op >>= next) faults store =
      (next (Store.exec op store).1).runWith (faults.later 1) (Store.exec op store).2 := by
  unfold Handler.runWith
  rw [show (ask op >>= next) = (perform (I := storeInterface Blob) op >>= next) from rfl, run_perform_bind,
    Faults.execute_clear clear]

theorem runWith_ask_pure (op : StoreOp Blob) (value : β) :
    ∃ rest after, Handler.runWith (ask op >>= fun _ => pure value) faults store = (.ok value, (rest, after)) := by
  cases fault : faults 0 with
  | some text => exact ⟨_, _, runWith_ask_fault fault _⟩
  | none => exact ⟨_, _, runWith_ask_clear fault _⟩

theorem runWith_guard_bind (condition : Bool) (next : Unit → Handler Blob β) :
    Handler.runWith ((ensure condition status : Handler Blob Unit) >>= next) faults store =
      if condition then (next ()).runWith faults store else (.error status, (faults, store)) :=
  run_ensure_bind (I := storeInterface Blob) _ condition status next _

theorem unchangedOnError_fail (status : Status) :
    UnchangedOnError (fail status : Handler Blob α) faults store := by
  intro _ rest after ran
  cases ran
  rfl

theorem unchangedOnError_guard {condition : Bool} {next : Unit → Handler Blob β}
    (passed : condition = true → UnchangedOnError (next ()) faults store) :
    UnchangedOnError ((ensure condition status : Handler Blob Unit) >>= next) faults store := by
  cases condition with
  | false => exact unchangedOnError_fail status
  | true => exact passed rfl

theorem unchangedOnError_lift {result : Except Status α} {next : α → Handler Blob β}
    (passed : ∀ value, result = .ok value → UnchangedOnError (next value) faults store) :
    UnchangedOnError ((lift result : Handler Blob α) >>= next) faults store := by
  cases result with
  | error status => exact unchangedOnError_fail status
  | ok value => exact passed value rfl

theorem unchangedOnError_orElse {found : Option α} {next : α → Handler Blob β}
    (passed : ∀ value, found = some value → UnchangedOnError (next value) faults store) :
    UnchangedOnError (orElse status found >>= next) faults store := by
  cases found with
  | none => exact unchangedOnError_fail status
  | some value => exact passed value rfl

theorem unchangedOnError_ask {op : StoreOp Blob} {next : op.Answer → Handler Blob β}
    (failed : ∀ text, faults 0 = some text → UnchangedOnError (next (op.failure text)) (faults.later 1) store)
    (silent : (Store.exec op store).2 = store)
    (done : faults 0 = none → UnchangedOnError (next (Store.exec op store).1) (faults.later 1) store) :
    UnchangedOnError (ask op >>= next) faults store := by
  intro status rest after ran
  cases fault : faults 0 with
  | some text =>
    rw [runWith_ask_fault fault] at ran
    exact failed text fault _ _ _ ran
  | none =>
    rw [runWith_ask_clear fault, silent] at ran
    exact done fault _ _ _ ran

end Rules

/-! The write of a revision. -/

section Write

variable (wire : Wire Blob) {faults : Faults String} {store : Store Blob} {sandboxId : String} {policy : SandboxPolicy}

/-- The revision that an update with the same policy finds and writes no other. -/
def Store.sameRevision (store : Store Blob) (sandboxId : String) (policy : SandboxPolicy) :
    Option (PolicyRecord Blob) :=
  (store.getLatestPolicy sandboxId).filter fun current => current.policyHash = deterministicPolicyHash wire policy

/-- The first statement reads the latest revision and the second one inserts the next. -/
def WriteFails (faults : Faults String) (store : Store Blob) (sandboxId : String) (policy : SandboxPolicy) : Prop :=
  faults 0 ≠ none ∨ store.sameRevision wire sandboxId policy = none ∧ faults 1 ≠ none

variable {wire} in
theorem writeFails_congr {filled : Store Blob} (policies : filled.policies = store.policies) :
    WriteFails wire faults filled sandboxId policy ↔ WriteFails wire faults store sandboxId policy := by
  unfold WriteFails Store.sameRevision Store.getLatestPolicy
  rw [policies]

theorem nextVersion_eq (store : Store Blob) (sandboxId : String) :
    (store.getLatestPolicy sandboxId).elim 1 (fun record => record.version + 1) =
      store.latestVersion sandboxId + 1 := by
  unfold Store.latestVersion
  cases store.getLatestPolicy sandboxId <;> rfl

/-- The insert itself cannot conflict: it comes right after the read, under the next version. -/
theorem runWith_writeUpdate (wire : Wire Blob) (faults : Faults String) (store : Store Blob) (sandboxId : String)
    (policy : SandboxPolicy) :
    (WriteFails wire faults store sandboxId policy ∧ ∃ status rest,
      (writeUpdate wire sandboxId policy).runWith faults store = (.error status, (rest, store))) ∨
    (¬ WriteFails wire faults store sandboxId policy ∧ ∃ response rest after,
      (writeUpdate wire sandboxId policy).runWith faults store = (.ok response, (rest, after))) := by
  unfold writeUpdate
  cases first : faults 0 with
  | some text =>
    refine .inl ⟨.inl (by rw [first]; exact Option.some_ne_none _), ?_⟩
    rw [runWith_ask_fault first]
    exact ⟨_, _, rfl⟩
  | none =>
    rw [runWith_ask_clear first]
    simp only [Store.exec, orInternal_ok_bind]
    cases same : store.sameRevision wire sandboxId policy with
    | some current =>
      refine .inr ⟨?_, ?_⟩
      · intro fails
        rcases fails with failed | ⟨unmatched, _⟩
        · exact failed first
        · rw [same] at unmatched
          cases unmatched
      · unfold Store.sameRevision at same
        rw [same]
        exact ⟨_, _, _, rfl⟩
    | none =>
      have unmatched := same
      unfold Store.sameRevision at same
      rw [same]
      simp only [persistRevision, bind_assoc]
      cases second : faults 1 with
      | some text =>
        refine .inl ⟨.inr ⟨unmatched, by rw [second]; exact Option.some_ne_none _⟩, ?_⟩
        rw [runWith_ask_fault (show faults.later 1 0 = some text from second)]
        exact ⟨_, _, rfl⟩
      | none =>
        obtain ⟨result, written⟩ := store.putPolicyRevision_next sandboxId (wire.encodePolicy policy)
          (deterministicPolicyHash wire policy)
        rw [← nextVersion_eq] at written
        refine .inr ⟨?_, ?_⟩
        · intro fails
          rcases fails with failed | ⟨_, failed⟩
          · exact failed first
          · exact failed second
        · rw [runWith_ask_clear (show faults.later 1 0 = none from second)]
          simp only [Store.exec, Store.write, written]
          exact ⟨_, runWith_ask_pure _ _⟩

theorem unchangedOnError_writeUpdate : UnchangedOnError (writeUpdate wire sandboxId policy) faults store := by
  intro status rest after ran
  rcases runWith_writeUpdate wire faults store sandboxId policy with ⟨_, _, _, failed⟩ | ⟨_, _, _, _, written⟩
  · rw [failed] at ran
    cases ran
    rfl
  · rw [written] at ran
    cases ran

end Write

/-! The update as a whole: it changes something before the insert exactly when it fills in the policy of
    the record. -/

section Update

variable {wire : Wire Blob} {faults : Faults String} {store : Store Blob}

def Store.specPolicy (store : Store Blob) (id : String) : Option SandboxPolicy :=
  (store.getSandbox id).bind Sandbox.specPolicy

def Sandbox.withPolicy (sandbox : Sandbox) (spec : SandboxSpec) (policy : SandboxPolicy) : Sandbox :=
  { sandbox with spec := some { spec with policy := some policy } }

theorem runWith_backfill {request : UpdateConfigRequest} {sandbox : Sandbox} {spec : SandboxSpec}
    {policy : SandboxPolicy} (backfills : request.Backfills store sandbox spec policy) (clear : faults.Clear 3) :
    ∃ filled : Store Blob, filled.policies = store.policies ∧
      filled.specPolicy sandbox.id = some (ensureSandboxProcessIdentity policy) ∧
      (handleUpdateConfig wire request).runWith faults store =
        (writeUpdate wire sandbox.id (ensureSandboxProcessIdentity policy)).runWith (faults.later 3) filled := by
  have present := Store.getSandbox_of_name backfills.found
  obtain ⟨filled, written⟩ : ∃ filled,
      store.putSandbox (sandbox.withPolicy spec (ensureSandboxProcessIdentity policy)) = .ok filled :=
    Store.putSandbox_present present
  obtain ⟨recorded, policies⟩ := Store.getSandbox_putSandbox written present sandbox.id
  refine ⟨filled, policies, ?_, ?_⟩
  · rw [Store.specPolicy, recorded, Sandbox.withPolicy, if_pos rfl]
    rfl
  have unfrozen : (((store.getSettings .global).getD {}).settings.lookup policySettingKey).isNone = true := by
    simpa [Store.globalPolicy] using backfills.unfrozen
  unfold handleUpdateConfig
  simp only [backfills.sandboxScoped, backfills.submitted, backfills.alone, Bool.not_true, Bool.and_false,
    Bool.not_false, Option.isSome_some, Bool.true_or, Bool.false_eq_true, if_false]
  rw [runWith_guard_bind, if_pos rfl, runWith_guard_bind, if_pos rfl, runWith_guard_bind,
    if_pos (by rw [backfills.named]; rfl)]
  simp only [fetchSandbox, bind_assoc]
  rw [runWith_ask_clear (clear 0 (by omega))]
  simp only [Store.exec, orInternal_ok_bind, backfills.found, orElse_some_bind, updateSandboxPolicy,
    loadGlobalSettings, loadSettingsRecord, bind_assoc]
  rw [runWith_ask_clear (show faults.later 1 0 = none from clear 1 (by omega))]
  simp only [Store.exec, orInternal_ok_bind]
  have pured : ∀ {γ : Type} (value : γ) (next : γ → Handler Blob UpdateConfigResponse),
      ((pure value : Handler Blob γ) >>= next) = next value := fun _ _ => rfl
  rw [pured, runWith_guard_bind, if_pos unfrozen, backfills.specified, orElse_some_bind]
  simp only [checkBaseline, backfills.baseless, bind_assoc]
  rw [runWith_ask_clear (show (faults.later 1).later 1 0 = none from clear 2 (by omega))]
  have filling : Store.exec (.putSandbox (sandbox.withPolicy spec (ensureSandboxProcessIdentity policy))) store =
      (Except.ok (), filled) := by
    simp only [Store.exec, written, Store.write]
    rfl
  unfold Sandbox.withPolicy at filling
  rw [filling, Faults.later_later, Faults.later_later]
  rfl

/-- A call that does not come to fill in the policy, or fails to, writes nothing before the insert. -/
theorem unchangedOnError_update (update : SandboxPolicyUpdate)
    (stops : ∀ sandbox spec policy, update.request.Backfills store sandbox spec policy → ¬ faults.Clear 3) :
    UnchangedOnError (handleUpdateConfig wire update.request) faults store := by
  obtain ⟨policy, submitted⟩ := Option.isSome_iff_exists.mp update.carriesPolicy
  unfold handleUpdateConfig
  simp only [update.sandboxScoped, submitted, Option.isSome_some, Bool.true_and, Bool.true_or, Bool.not_not,
    Bool.false_eq_true, if_false]
  apply unchangedOnError_guard
  intro alone
  apply unchangedOnError_guard
  intro _
  apply unchangedOnError_guard
  intro named
  simp only [fetchSandbox, bind_assoc]
  apply unchangedOnError_ask (fun _ _ => unchangedOnError_fail _) rfl
  intro first
  apply unchangedOnError_orElse
  intro sandbox found
  rw [alone, Bool.not_true, if_neg Bool.false_ne_true]
  simp only [updateSandboxPolicy, loadGlobalSettings, loadSettingsRecord, bind_assoc, orElse_some_bind]
  apply unchangedOnError_ask (fun _ _ => unchangedOnError_fail _) rfl
  intro second
  apply unchangedOnError_guard
  intro unfrozen
  apply unchangedOnError_orElse
  intro spec specified
  cases base : spec.policy with
  | some baseline =>
    simp only [checkBaseline, base, bind_assoc]
    apply unchangedOnError_lift
    intro _ _
    apply unchangedOnError_lift
    intro _ _
    exact unchangedOnError_writeUpdate wire
  | none =>
    simp only [checkBaseline, base, bind_assoc]
    have backfills : update.request.Backfills store sandbox spec policy :=
      { sandboxScoped := update.sandboxScoped, submitted := submitted, alone := alone
        named := by simpa using named
        found := found
        unfrozen := by simpa [Store.globalPolicy] using unfrozen
        specified := specified, baseless := base }
    cases third : faults 2 with
    | some text =>
      intro status rest after ran
      rw [runWith_ask_fault (show (faults.later 1).later 1 0 = some text from third)] at ran
      cases ran
      rfl
    | none =>
      have clear : faults.Clear 3 := ((Faults.clear_zero.succ first).succ second).succ third
      exact absurd clear (stops sandbox spec policy backfills)

/-- The policy of each record, and the revisions. -/
def Store.SamePolicies (before after : Store Blob) : Prop :=
  (∀ id, after.specPolicy id = before.specPolicy id) ∧ after.policies = before.policies

/-- A failed update changes nothing, except one that has filled in the policy of the record and fails
    behind that. -/
theorem failedUpdate_unchanged_iff (wire : Wire Blob) (store : Store Blob) (update : SandboxPolicyUpdate)
    (faults : Faults String) :
    (∀ status rest after, (handleUpdateConfig wire update.request).runWith faults store =
        (.error status, (rest, after)) → store.SamePolicies after) ↔
      ∀ sandbox spec policy, update.request.Backfills store sandbox spec policy → faults.Clear 3 →
        ¬ WriteFails wire (faults.later 3) store sandbox.id (ensureSandboxProcessIdentity policy) := by
  constructor
  · intro unchanged sandbox spec policy backfills clear fails
    obtain ⟨filled, policies, filledPolicy, through⟩ := runWith_backfill backfills clear
    rcases runWith_writeUpdate wire (faults.later 3) filled sandbox.id (ensureSandboxProcessIdentity policy) with
      ⟨_, status, rest, failed⟩ | ⟨passes, _⟩
    · have same := (unchanged status rest filled (through.trans failed)).1 sandbox.id
      rw [filledPolicy, Store.specPolicy, Store.getSandbox_of_name backfills.found, Option.bind_some,
        Sandbox.specPolicy, backfills.specified, Option.bind_some, backfills.baseless] at same
      cases same
    · exact passes ((writeFails_congr policies).mpr fails)
  · intro passes status rest after ran
    by_cases fills : ∃ sandbox spec policy, update.request.Backfills store sandbox spec policy ∧ faults.Clear 3
    · obtain ⟨sandbox, spec, policy, backfills, clear⟩ := fills
      obtain ⟨filled, policies, _, through⟩ := runWith_backfill backfills clear
      rcases runWith_writeUpdate wire (faults.later 3) filled sandbox.id (ensureSandboxProcessIdentity policy) with
        ⟨fails, _⟩ | ⟨_, _, _, _, succeeded⟩
      · exact absurd ((writeFails_congr policies).mp fails) (passes sandbox spec policy backfills clear)
      · rw [through, succeeded] at ran
        cases ran
    · have same := unchangedOnError_update update
        (fun sandbox spec policy backfills clear => fills ⟨sandbox, spec, policy, backfills, clear⟩) _ _ _ ran
      rw [same]
      exact ⟨fun _ => rfl, rfl⟩

end Update

/-- The insert of the first revision fails after the policy of the record has been filled in. -/
theorem failedUpdate_changes : ¬ ∀ (store : Store Message) (update : SandboxPolicyUpdate) (faults : Faults String)
    (status : Status) (rest : Faults String) (after : Store Message),
    (handleUpdateConfig plainWire update.request).runWith faults store = (.error status, (rest, after)) →
      store.SamePolicies after := by
  intro unchanged
  have same := (unchanged (Store.exec (.putSandbox blankSandbox.message) {}).2
    ⟨{ name := "beta", policy := some {} }, rfl, rfl⟩ (fun step => if step = 4 then some "disk full" else none)
    _ _ _ rfl).1 "sb"
  cases same

end OpenShell.Server
