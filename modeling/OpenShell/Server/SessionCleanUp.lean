import OpenShell.Server.SandboxDeletion

namespace OpenShell.Server.Gateway

/-! Which sessions are left after the deletion of a sandbox and after a sweep of the reaper. -/

/-- Fewer sessions than a page holds come before the record in the order of the list. -/
def OnFirstPage (objects : StoredObjects) (record : ObjectRecord Object) : Prop :=
  Pages.earlier ObjectRecord.rank (objects.ofType "ssh_session") record.rank < sessionPage

/-- The sessions that are left are those that are not wanted gone and those beyond the first page. -/
def Swept (wanted : SshSession → Bool) (before after : StoredObjects) : Prop :=
  ∀ record session, record.message.session? = some session →
    (record ∈ after ↔ record ∈ before ∧ ¬(wanted session = true ∧ OnFirstPage before record))

/-- No session is left that was wanted gone. -/
def Cleared (wanted : SshSession → Bool) (after : StoredObjects) : Prop :=
  ∀ record ∈ after, ∀ session, record.message.session? = some session → wanted session = false

def Untouched (wanted : SshSession → Bool) (before after : StoredObjects) : Prop :=
  ∀ record session, record.message.session? = some session → wanted session = false →
    (record ∈ after ↔ record ∈ before)

/-- Every session that is wanted gone is on the first page. -/
def WithinPage (wanted : SshSession → Bool) (before : StoredObjects) : Prop :=
  ∀ record ∈ before, ∀ session, record.message.session? = some session → wanted session = true →
    OnFirstPage before record

section Sweep

variable {tracing : Tracing} {outside : SweepOutside} {wanted : SshSession → Bool}
  {warning : SshSession → String → TracingEvent} {before after later : StoredObjects}

theorem Swept.cleared_iff (swept : Swept wanted before after) : Cleared wanted after ↔ WithinPage wanted before := by
  constructor
  · intro cleared record member session decoded unwanted
    by_contra beyond
    have left := (swept record session decoded).mpr ⟨member, fun both => beyond both.2⟩
    rw [cleared record left session decoded] at unwanted
    cases unwanted
  · intro within record left session decoded
    obtain ⟨member, kept⟩ := (swept record session decoded).mp left
    by_contra unwanted
    rw [Bool.not_eq_false] at unwanted
    exact kept ⟨unwanted, within record member session decoded unwanted⟩

theorem Swept.untouched (swept : Swept wanted before after) : Untouched wanted before after := by
  intro record session decoded kept
  rw [swept record session decoded, kept]
  simp

theorem mem_sweepRecord (works : ∀ id, outside.deleteError id = none) {state : ServerState}
    {listed record : ObjectRecord Object} {session : SshSession} (decoded : record.message.session? = some session) :
    record ∈ (sweepRecord tracing outside wanted warning state listed).objects ↔ record ∈ state.objects ∧
      ¬∃ other, listed.message.session? = some other ∧ wanted other = true ∧ other.id = session.id := by
  obtain ⟨sameType, sameId⟩ := session_record decoded
  unfold sweepRecord
  cases held : listed.message.session? with
  | none => simp
  | some other =>
    cases unwanted : wanted other with
    | false => simp [unwanted]
    | true =>
      simp only [unwanted, if_true, works, Objects.mem_delete, sameType, sameId, true_and, Option.some.injEq,
        exists_eq_left', eq_comm]

theorem mem_sweep (works : ∀ id, outside.deleteError id = none) (page : List (ObjectRecord Object))
    {state : ServerState} {record : ObjectRecord Object} {session : SshSession}
    (decoded : record.message.session? = some session) :
    record ∈ (sweep tracing outside wanted warning page state).objects ↔ record ∈ state.objects ∧
      ¬∃ listed ∈ page, ∃ other, listed.message.session? = some other ∧ wanted other = true ∧
        other.id = session.id := by
  induction page generalizing state with
  | nil => simp [sweep]
  | cons listed page ih =>
    have next := @ih (sweepRecord tracing outside wanted warning state listed)
    rw [sweep, List.foldl_cons]
    rw [sweep] at next
    rw [next, mem_sweepRecord works decoded, List.exists_mem_cons_iff, not_or, and_assoc]

theorem swept_page (works : ∀ id, outside.deleteError id = none) (state : ServerState) :
    Swept wanted state.objects
      (sweep tracing outside wanted warning (state.objects.list "ssh_session" sessionPage 0) state).objects := by
  intro record session decoded
  obtain ⟨sameType, sameId⟩ := session_record decoded
  rw [mem_sweep works _ decoded]
  refine and_congr_right fun member => not_congr ?_
  constructor
  · rintro ⟨listed, paged, other, held, unwanted, same⟩
    obtain ⟨present, -, early⟩ := Objects.mem_firstPage.mp paged
    have this : listed = record :=
      Objects.eq_of_id present member ((session_record held).2.trans (same.trans sameId.symm))
    subst this
    rw [decoded] at held
    cases held
    exact ⟨unwanted, early⟩
  · rintro ⟨unwanted, early⟩
    exact ⟨record, Objects.mem_firstPage.mpr ⟨member, sameType, early⟩, session, decoded, unwanted, rfl⟩

/-- Writes that come after the sweep and leave the sessions alone. -/
theorem Swept.frame_after (swept : Swept wanted before after)
    (same : ∀ record session, record.message.session? = some session → (record ∈ later ↔ record ∈ after)) :
    Swept wanted before later := by
  intro record session decoded
  rw [same record session decoded]
  exact swept record session decoded

/-- A write of another message before the sweep. -/
theorem Swept.of_replace {message : Object} (differs : "ssh_session" ≠ Stored.objectType message)
    (swept : Swept wanted (before.replace message) after) : Swept wanted before after := by
  intro record session decoded
  have sameType := (session_record decoded).1
  rw [swept record session decoded, Objects.mem_replace_other (sameType.trans_ne differs), OnFirstPage,
    Objects.ofType_replace differs]
  exact Iff.rfl

end Sweep

section Delete

variable {tracing : Tracing} {outside : DeleteOutside} {name : String} {state after : ServerState} {deleted : Bool}
  {sandbox : Sandbox} {record : ObjectRecord Object} {session : SshSession}

theorem kubeDelete_objects : (kubeDelete tracing outside name state).2.objects = state.objects := by
  unfold kubeDelete
  cases outside.cluster <;> rfl

theorem mem_delete_other {objectType id : String} {objects : StoredObjects} (foreign : objectType ≠ "ssh_session")
    (decoded : record.message.session? = some session) :
    record ∈ (objects.delete objectType id).2 ↔ record ∈ objects := by
  rw [Objects.mem_delete, (session_record decoded).1]
  exact and_iff_left fun same => foreign same.1.symm

theorem mem_cleanUpSettings {id : String} (decoded : record.message.session? = some session) :
    record ∈ (cleanUpSettings tracing outside id state).objects ↔ record ∈ state.objects := by
  unfold cleanUpSettings
  split
  · exact Iff.rfl
  · exact mem_delete_other (by decide) decoded

theorem mem_finishDelete (decoded : record.message.session? = some session) :
    record ∈ (finishDelete tracing outside sandbox deleted state).objects ↔ record ∈ state.objects := by
  cases deleted with
  | true => exact Iff.rfl
  | false =>
    show record ∈ (removeRecord tracing outside sandbox.id state).objects ↔ _
    unfold removeRecord
    split
    · exact Iff.rfl
    · exact mem_delete_other (by decide) decoded

theorem swept_cleanUpSessions (tracing : Tracing) (listed : outside.sessions.listError = none)
    (works : ∀ id, outside.sessions.deleteError id = none) (id : String) (state : ServerState) :
    Swept (fun session => session.sandboxId = id) state.objects (cleanUpSessions tracing outside id state).objects := by
  unfold cleanUpSessions listSessions
  rw [listed]
  exact swept_page works state

theorem swept_marked (listed : outside.sessions.listError = none)
    (works : ∀ id, outside.sessions.deleteError id = none) (member : record ∈ state.objects)
    (sameId : record.id = sandbox.id)
    (succeeded : deleteMarked tracing outside sandbox state = (.ok deleted, after)) :
    Swept (fun session => session.sandboxId = sandbox.id) state.objects after.objects := by
  obtain ⟨objects, before, put, asked, rfl⟩ := deleteMarked_ok succeeded
  have stored : objects = state.objects.replace (.sandbox sandbox) := by
    have taken : record.id = Stored.objectId (Object.sandbox sandbox) := sameId
    rw [Objects.put_taken member taken] at put
    exact (Except.ok.inj put).symm
  subst stored
  have unchanged := congrArg (fun answer => answer.2.objects) asked
  rw [kubeDelete_objects] at unchanged
  dsimp only at unchanged
  have swept := swept_cleanUpSessions tracing listed works sandbox.id
    (markedDeleting sandbox (state.objects.replace (.sandbox sandbox)) state)
  have differs : "ssh_session" ≠ Stored.objectType (Object.sandbox sandbox) := show "ssh_session" ≠ "sandbox" by decide
  apply Swept.of_replace differs
  apply swept.frame_after
  intro record session decoded
  rw [mem_finishDelete decoded, ← unchanged]
  exact mem_cleanUpSettings decoded

/-- The deletion of a sandbox sweeps its sessions. -/
theorem swept_deleted (listed : outside.sessions.listError = none)
    (works : ∀ id, outside.sessions.deleteError id = none)
    (found : getSandboxByName state.objects name = some sandbox)
    (succeeded : handleDeleteSandbox tracing outside name state = (.ok deleted, after)) :
    Swept (fun session => session.sandboxId = sandbox.id) state.objects after.objects := by
  obtain ⟨stored, member, same, -⟩ := getSandboxByName_some found
  have sameId : stored.id = Sandbox.id { sandbox with phase := .deleting } := by
    rw [ObjectRecord.id, same]
    rfl
  have swept := swept_marked listed works member sameId (handleDeleteSandbox_ok found succeeded)
  exact swept

end Delete

theorem swept_reaped {tracing : Tracing} {outside : SweepOutside} {nowMs : Int} {state after : ServerState}
    (works : ∀ id, outside.deleteError id = none)
    (succeeded : reapExpiredSessions tracing outside nowMs state = (.ok (), after)) :
    Swept (shouldDelete nowMs) state.objects after.objects := by
  unfold reapExpiredSessions listSessions at succeeded
  cases failed : outside.listError with
  | some error =>
    rw [failed] at succeeded
    cases succeeded
  | none =>
    rw [failed] at succeeded
    have objects := congrArg (fun answer => answer.2.objects) succeeded
    dsimp only [attempt] at objects
    rw [← objects]
    split
    · exact swept_page works state
    · exact swept_page works state

section CleanUp

variable {tracing : Tracing} {outside : DeleteOutside} {reaper : SweepOutside} {name : String} {nowMs : Int}
  {state after earlier later : ServerState} {deleted : Bool} {sandbox : Sandbox}

/-- No statement of the sweep fails. -/
structure SweepOutside.Works (outside : SweepOutside) : Prop where
  list : outside.listError = none
  delete : ∀ id, outside.deleteError id = none

/-- Both sweeps are complete exactly when all that they want gone is on the first page. -/
theorem sessionCleanUp_complete_iff (works : outside.sessions.Works) (reaps : reaper.Works)
    (found : getSandboxByName state.objects name = some sandbox)
    (succeeded : handleDeleteSandbox tracing outside name state = (.ok deleted, after))
    (swept : reapExpiredSessions tracing reaper nowMs earlier = (.ok (), later)) :
    ((Cleared (fun session => session.sandboxId = sandbox.id) after.objects ↔
        WithinPage (fun session => session.sandboxId = sandbox.id) state.objects) ∧
      Untouched (fun session => session.sandboxId = sandbox.id) state.objects after.objects) ∧
    (Cleared (shouldDelete nowMs) later.objects ↔ WithinPage (shouldDelete nowMs) earlier.objects) ∧
      Untouched (shouldDelete nowMs) earlier.objects later.objects := by
  have deletion := swept_deleted works.list works.delete found succeeded
  have reaping := swept_reaped reaps.delete swept
  exact ⟨⟨deletion.cleared_iff, deletion.untouched⟩, reaping.cleared_iff, reaping.untouched⟩

end CleanUp

section Example

def token (number : Nat) : String := String.ofList (List.replicate number 'a')

theorem token_injective : Function.Injective token := by
  intro first second same
  have lists := congrArg String.toList same
  simp only [token, String.toList_ofList] at lists
  simpa using congrArg List.length lists

def revokedSession (number : Nat) : ObjectRecord Object :=
  ⟨token number, .sshSession { id := token number, sandboxId := "sb", name := token number, revoked := true }, number⟩

theorem token_ne (number : Nat) : token number ≠ "sb" := by
  intro same
  have lists := congrArg String.toList same
  simp only [token, String.toList_ofList] at lists
  have member : 's' ∈ List.replicate number 'a' := by
    rw [lists]
    decide
  exact absurd (List.eq_of_mem_replicate member) (by decide)

/-- The sandbox `beta` and its sessions, all of them revoked. -/
def crowded (count : Nat) : ServerState where
  objects :=
    { table := ⟨betaRecord :: (List.range count).map revokedSession, by
        rw [List.map_cons, List.nodup_cons, List.map_map]
        refine ⟨?_, List.nodup_range.map token_injective⟩
        intro taken
        obtain ⟨number, -, same⟩ := List.mem_map.mp taken
        exact token_ne number same⟩
      named := by
        rw [List.map_cons, List.nodup_cons, List.map_map]
        refine ⟨?_, List.nodup_range.map fun first second same => token_injective (congrArg Prod.snd same)⟩
        intro taken
        obtain ⟨number, -, same⟩ := List.mem_map.mp taken
        have types : "ssh_session" = "sandbox" := congrArg Prod.fst same
        exact absurd types (by decide) }

theorem crowded_sessions (count : Nat) :
    (crowded count).objects.ofType "ssh_session" = (List.range count).map revokedSession := by
  have foreign : betaRecord.objectType ≠ "ssh_session" := by decide
  show List.filter _ (betaRecord :: (List.range count).map revokedSession) = _
  rw [List.filter_cons_of_neg (by simpa using foreign), List.filter_eq_self]
  intro record member
  obtain ⟨number, -, rfl⟩ := List.mem_map.mp member
  rfl

theorem withinPage_crowded {count : Nat} (few : count < sessionPage) (wanted : SshSession → Bool) :
    WithinPage wanted (crowded count).objects := by
  intro record _ _ _ _
  refine Nat.lt_of_le_of_lt List.countP_le_length ?_
  rw [crowded_sessions, List.length_map, List.length_range]
  exact few

theorem revokedSession_rank {first second : Nat} (before : first < second) :
    (revokedSession first).rank < (revokedSession second).rank := by
  have created : (first : Int) < second := by omega
  exact Prod.Lex.toLex_lt_toLex.mpr (.inl created)

theorem not_withinPage_crowded {count : Nat} (many : sessionPage ≤ count) {wanted : SshSession → Bool}
    (all : ∀ number session, (revokedSession number).message.session? = some session → wanted session = true) :
    ¬WithinPage wanted (crowded (count + 1)).objects := by
  intro within
  have last : revokedSession count ∈ (crowded (count + 1)).objects :=
    List.mem_cons_of_mem _ (List.mem_map.mpr ⟨count, List.mem_range.mpr (Nat.lt_succ_self count), rfl⟩)
  have early := within _ last _ rfl (all count _ rfl)
  unfold OnFirstPage at early
  rw [crowded_sessions, Pages.earlier, List.countP_map, List.range_succ, List.countP_append] at early
  have full : (List.range count).countP
      ((fun row => decide (row.rank < (revokedSession count).rank)) ∘ revokedSession) = count := by
    rw [List.countP_eq_length.mpr, List.length_range]
    intro number member
    exact decide_eq_true (revokedSession_rank (List.mem_range.mp member))
  rw [full] at early
  omega

theorem twoSessions_cleared :
    Cleared (fun session => session.sandboxId = "sb") (handleDeleteSandbox infoLevel {} "beta" (crowded 2)).2.objects ∧
      Cleared (shouldDelete 5) (reapExpiredSessions infoLevel {} 5 (crowded 2)).2.objects := by
  have works : SweepOutside.Works {} := ⟨rfl, fun _ => rfl⟩
  have found : getSandboxByName (crowded 2).objects "beta" = some beta := rfl
  have answered : (handleDeleteSandbox infoLevel {} "beta" (crowded 2)).1 = .ok true := rfl
  have reaped : (reapExpiredSessions infoLevel {} 5 (crowded 2)).1 = .ok () := rfl
  obtain ⟨⟨deleted, -⟩, swept, -⟩ := sessionCleanUp_complete_iff works works found (Prod.ext answered rfl)
    (Prod.ext reaped rfl)
  exact ⟨deleted.mpr (withinPage_crowded (by decide) _), swept.mpr (withinPage_crowded (by decide) _)⟩

/-- Of 1001 sessions the last one is beyond the page. -/
theorem crowded_notCleared : ¬∀ (tracing : Tracing) (outside : DeleteOutside) (state after : ServerState)
    (name : String) (sandbox : Sandbox) (deleted : Bool), outside.sessions.Works →
    getSandboxByName state.objects name = some sandbox →
    handleDeleteSandbox tracing outside name state = (.ok deleted, after) →
    Cleared (fun session => session.sandboxId = sandbox.id) after.objects := by
  intro clears
  have works : SweepOutside.Works {} := ⟨rfl, fun _ => rfl⟩
  have found : getSandboxByName (crowded 1001).objects "beta" = some beta := rfl
  have answered : (handleDeleteSandbox infoLevel {} "beta" (crowded 1001)).1 = .ok true := rfl
  have cleared := clears infoLevel {} _ _ "beta" beta true works found (Prod.ext answered rfl)
  have swept := swept_deleted works.list works.delete found (Prod.ext answered rfl)
  refine not_withinPage_crowded (Nat.le_refl sessionPage) ?_ (swept.cleared_iff.mp cleared)
  intro number session decoded
  cases decoded
  rfl

end Example

end OpenShell.Server.Gateway
