import OpenShell.Server.PolicyWrites

namespace OpenShell.Server

open OpenShell.Policy Effects Effects.Fallible Relational

variable {Blob : Type}

namespace Store

def latestVersion (store : Store Blob) (sandboxId : String) : Nat :=
  (store.getLatestPolicy sandboxId).elim 0 PolicyRecord.version

theorem version_le_latest {store : Store Blob} {record : PolicyRecord Blob}
    (member : record ∈ store.policies) : record.version ≤ store.latestVersion record.sandboxId := by
  unfold latestVersion
  cases found : store.getLatestPolicy record.sandboxId with
  | none =>
    have unselected := Table.latest_none.mp found record member
    simp at unselected
  | some newest =>
    obtain ⟨_, _, bound⟩ := Table.latest_some found
    exact bound record member (by simp)

def newRevision (sandboxId : String) (version : Nat) (payload : Blob) (hash : String) :
    PolicyRecord Blob :=
  { sandboxId := sandboxId, version := version, policyPayload := payload, policyHash := hash,
    status := .pending }

theorem putPolicyRevision_ok {store result : Store Blob} {sandboxId : String} {version : Nat}
    {payload : Blob} {hash : String}
    (written : store.putPolicyRevision sandboxId version payload hash = .ok result) :
    result.policies.rows = store.policies.rows ++ [newRevision sandboxId version payload hash] ∧
      result = { store with policies := result.policies } := by
  unfold putPolicyRevision at written
  cases inserted : store.policies.insert (newRevision sandboxId version payload hash) with
  | none =>
    simp only [newRevision] at inserted
    rw [inserted] at written
    cases written
  | some policies =>
    have rows := (Table.insert_some inserted).1
    simp only [newRevision] at inserted
    rw [inserted] at written
    cases written
    exact ⟨rows, rfl⟩

theorem putPolicyRevision_next (store : Store Blob) (sandboxId : String) (payload : Blob)
    (hash : String) :
    ∃ result, store.putPolicyRevision sandboxId (store.latestVersion sandboxId + 1) payload hash =
      .ok result := by
  unfold putPolicyRevision
  split
  · rename_i policies _
    exact ⟨_, rfl⟩
  · rename_i taken
    obtain ⟨record, member, same⟩ := Table.insert_none.mp taken
    simp only [PolicyRecord.key, Prod.mk.injEq] at same
    obtain ⟨owner, version⟩ := same
    have bound := version_le_latest member
    rw [owner] at bound
    omega

/-- The store after one more revision has been written and the older ones superseded. -/
def appendRevision (store : Store Blob) (sandboxId : String) (payload : Blob) (hash : String) :
    Store Blob :=
  match store.putPolicyRevision sandboxId (store.latestVersion sandboxId + 1) payload hash with
  | .ok result => result.supersedeOlderPolicies sandboxId (store.latestVersion sandboxId + 1)
  | .error _ => store

def supersedeRow (sandboxId : String) (beforeVersion : Nat) (record : PolicyRecord Blob) :
    PolicyRecord Blob :=
  if superseded sandboxId beforeVersion record then record.supersede else record

theorem mem_supersedeOlderPolicies {store : Store Blob} {sandboxId : String} {version : Nat}
    {record : PolicyRecord Blob} :
    record ∈ (store.supersedeOlderPolicies sandboxId version).policies ↔
      ∃ old ∈ store.policies, record = supersedeRow sandboxId version old := by
  simp only [supersedeOlderPolicies, Table.mem_update, supersedeRow]

theorem mem_updatePolicyStatus {store : Store Blob} {owner : String} {reportedVersion : Nat} {status : PolicyStatus}
    {loadError : Option String} {loadedAtMs : Option Int} {record : PolicyRecord Blob} :
    record ∈ (store.updatePolicyStatus owner reportedVersion status loadError loadedAtMs).policies ↔
      ∃ old ∈ store.policies, record =
        if old.sandboxId = owner ∧ old.version = reportedVersion then
          old.withStatus status loadError loadedAtMs
        else old := by
  simp only [updatePolicyStatus, Table.mem_update, decide_eq_true_eq]

@[simp] theorem supersedeRow_sandboxId (sandboxId : String) (version : Nat)
    (record : PolicyRecord Blob) : (supersedeRow sandboxId version record).sandboxId = record.sandboxId := by
  unfold supersedeRow
  split <;> rfl

@[simp] theorem supersedeRow_version (sandboxId : String) (version : Nat)
    (record : PolicyRecord Blob) : (supersedeRow sandboxId version record).version = record.version := by
  unfold supersedeRow
  split <;> rfl

@[simp] theorem supersedeRow_policyPayload (sandboxId : String) (version : Nat)
    (record : PolicyRecord Blob) :
    (supersedeRow sandboxId version record).policyPayload = record.policyPayload := by
  unfold supersedeRow
  split <;> rfl

@[simp] theorem supersedeRow_key (sandboxId : String) (version : Nat) (record : PolicyRecord Blob) :
    (supersedeRow sandboxId version record).key = record.key := by
  unfold supersedeRow
  split <;> rfl

theorem supersedeRow_of_le {sandboxId : String} {version : Nat} {record : PolicyRecord Blob}
    (recent : version ≤ record.version) : supersedeRow sandboxId version record = record := by
  have untouched : superseded sandboxId version record = false := by
    simp only [superseded, decide_eq_false_iff_not, not_and]
    intro _ older
    omega
  simp [supersedeRow, untouched]

theorem mem_appendRevision {store : Store Blob} {sandboxId : String} {payload : Blob} {hash : String}
    {record : PolicyRecord Blob} :
    record ∈ (store.appendRevision sandboxId payload hash).policies ↔
      record = newRevision sandboxId (store.latestVersion sandboxId + 1) payload hash ∨
      ∃ old ∈ store.policies, record = supersedeRow sandboxId (store.latestVersion sandboxId + 1) old := by
  obtain ⟨result, written⟩ := store.putPolicyRevision_next sandboxId payload hash
  have rows := (putPolicyRevision_ok written).1
  have fixed : supersedeRow sandboxId (store.latestVersion sandboxId + 1)
      (newRevision sandboxId (store.latestVersion sandboxId + 1) payload hash) =
      newRevision sandboxId (store.latestVersion sandboxId + 1) payload hash :=
    supersedeRow_of_le (Nat.le_refl _)
  simp only [appendRevision, written]
  rw [mem_supersedeOlderPolicies]
  simp only [Table.mem_rows, rows, List.mem_append, List.mem_singleton]
  constructor
  · intro present
    rcases present with ⟨old, earlier | rfl, rfl⟩
    · exact Or.inr ⟨old, earlier, rfl⟩
    · exact Or.inl fixed
  · intro present
    rcases present with rfl | ⟨old, earlier, rfl⟩
    · exact ⟨_, Or.inr rfl, fixed.symm⟩
    · exact ⟨old, Or.inl earlier, rfl⟩

theorem appendRevision_frame (store : Store Blob) (sandboxId : String) (payload : Blob) (hash : String) :
    store.appendRevision sandboxId payload hash =
      { store with policies := (store.appendRevision sandboxId payload hash).policies } := by
  obtain ⟨result, written⟩ := store.putPolicyRevision_next sandboxId payload hash
  have frame := (putPolicyRevision_ok written).2
  simp only [appendRevision, written, supersedeOlderPolicies]
  rw [frame]

theorem getLatestPolicy_put {store result : Store Blob} {sandboxId : String} {payload : Blob} {hash : String}
    (written : store.putPolicyRevision sandboxId (store.latestVersion sandboxId + 1) payload hash =
      .ok result) :
    result.getLatestPolicy sandboxId =
      some (newRevision sandboxId (store.latestVersion sandboxId + 1) payload hash) := by
  have rows := (putPolicyRevision_ok written).1
  apply Table.latest_of_greatest
  · rw [Table.mem_rows, rows]
    exact List.mem_append_right _ (List.mem_singleton_self _)
  · simp [newRevision]
  · intro other member chosen differs
    rw [Table.mem_rows, rows] at member
    rcases List.mem_append.mp member with earlier | added
    · have owner : other.sandboxId = sandboxId := by simpa using chosen
      have bound := version_le_latest earlier
      rw [owner] at bound
      simp only [newRevision]
      omega
    · exact absurd (List.mem_singleton.mp added) differs

theorem getLatestPolicy_supersede (store : Store Blob) (owner : String) (bound : Nat) (sandboxId : String) :
    (store.supersedeOlderPolicies owner bound).getLatestPolicy sandboxId =
      (store.getLatestPolicy sandboxId).map (supersedeRow owner bound) := by
  have sameOwner : ∀ record : PolicyRecord Blob,
      decide ((supersedeRow owner bound record).sandboxId = sandboxId) = decide (record.sandboxId = sandboxId) := by
    intro record
    rw [supersedeRow_sandboxId]
  exact Table.latest_update (fun record _ => record.supersede_key) sameOwner
    (supersedeRow_version owner bound)

theorem getLatestPolicy_appendRevision (store : Store Blob) (sandboxId : String) (payload : Blob)
    (hash : String) :
    (store.appendRevision sandboxId payload hash).getLatestPolicy sandboxId =
      some (newRevision sandboxId (store.latestVersion sandboxId + 1) payload hash) := by
  obtain ⟨result, written⟩ := store.putPolicyRevision_next sandboxId payload hash
  simp only [appendRevision, written]
  rw [getLatestPolicy_supersede, getLatestPolicy_put written, Option.map_some,
    supersedeRow_of_le (by simp [newRevision])]

end Store

/-- The policy in force for the draft workflow: the newest revision, or the empty default. -/
def currentPolicy (wire : Wire Blob) (store : Store Blob) (sandboxId : String) :
    Except String SandboxPolicy :=
  (store.getLatestPolicy sandboxId).elim (.ok {}) fun record => wire.decodePolicy record.policyPayload

variable (wire : Wire Blob) (lower : String → String)

theorem currentPolicy_appendRevision (store : Store Blob) (sandboxId : String)
    (policy : SandboxPolicy) (hash : String) :
    ∃ decoded, currentPolicy wire (store.appendRevision sandboxId (wire.encodePolicy policy) hash)
      sandboxId = .ok decoded ∧ decoded.Same policy := by
  simp only [currentPolicy, Store.getLatestPolicy_appendRevision, Option.elim_some, Store.newRevision]
  exact wire.policy_round_trip policy

theorem run_putRevision (store : Store Blob) (sandboxId : String) (policy : SandboxPolicy) :
    (putRevision wire sandboxId (store.latestVersion sandboxId + 1) policy).run Store.exec store =
      (.ok (some (store.latestVersion sandboxId + 1, deterministicPolicyHash wire policy)),
        store.appendRevision sandboxId (wire.encodePolicy policy) (deterministicPolicyHash wire policy)) := by
  obtain ⟨result, written⟩ := store.putPolicyRevision_next sandboxId (wire.encodePolicy policy)
    (deterministicPolicyHash wire policy)
  simp only [putRevision, run_ask_bind, Store.exec, written, Store.write, Store.appendRevision, run_pure]

section Merge

variable {store : Store Blob} {sandboxId : String} {chunk : DraftChunkRecord Blob}

theorem run_mergeBase (store : Store Blob) (sandboxId : String) :
    (mergeBase wire (store.getLatestPolicy sandboxId)).run Store.exec store =
      match currentPolicy wire store sandboxId with
      | .ok policy => (.ok (policy, store.latestVersion sandboxId), store)
      | .error text => (.error ⟨.internal, "decode current policy failed: " ++ text⟩, store) := by
  unfold currentPolicy Store.latestVersion
  cases found : store.getLatestPolicy sandboxId with
  | none => rfl
  | some record =>
    simp only [mergeBase, Option.elim_some]
    cases wire.decodePolicy record.policyPayload <;> rfl

theorem run_mergeAttempts {rule : NetworkPolicyRule} {policy : SandboxPolicy} (attempts : Nat)
    (decoded : currentPolicy wire store sandboxId = .ok policy) :
    (mergeAttempts wire lower sandboxId chunk rule (attempts + 1)).run Store.exec store =
      (.ok (store.latestVersion sandboxId + 1,
          deterministicPolicyHash wire (mergeChunk lower policy chunk rule)),
        store.appendRevision sandboxId (wire.encodePolicy (mergeChunk lower policy chunk rule))
          (deterministicPolicyHash wire (mergeChunk lower policy chunk rule))) := by
  have attempt := run_putRevision wire store sandboxId (mergeChunk lower policy chunk rule)
  have base := run_mergeBase wire store sandboxId
  rw [decoded] at base
  simp only [mergeAttempts, run_ask_bind, Store.exec, run_orInternal_ok_bind]
  rw [run_bind_of_ok base, run_bind_of_ok attempt]
  rfl

theorem run_mergeAttempts_error {rule : NetworkPolicyRule} {text : String} (attempts : Nat)
    (broken : currentPolicy wire store sandboxId = .error text) :
    (mergeAttempts wire lower sandboxId chunk rule (attempts + 1)).run Store.exec store =
      (.error ⟨.internal, "decode current policy failed: " ++ text⟩, store) := by
  have base := run_mergeBase wire store sandboxId
  rw [broken] at base
  simp only [mergeAttempts, run_ask_bind, Store.exec, run_orInternal_ok_bind]
  rw [run_bind_of_error base]

/-- What a merge needs: a proposed rule and a current policy that decode. -/
def Mergeable (store : Store Blob) (sandboxId : String) (chunk : DraftChunkRecord Blob)
    (rule : NetworkPolicyRule) (policy : SandboxPolicy) : Prop :=
  wire.decodeRule chunk.proposedRule = .ok rule ∧ currentPolicy wire store sandboxId = .ok policy

theorem run_mergeChunkIntoPolicy {rule : NetworkPolicyRule} {policy : SandboxPolicy}
    (ready : Mergeable wire store sandboxId chunk rule policy) :
    (mergeChunkIntoPolicy wire lower sandboxId chunk).run Store.exec store =
      (.ok (store.latestVersion sandboxId + 1,
          deterministicPolicyHash wire (mergeChunk lower policy chunk rule)),
        store.appendRevision sandboxId (wire.encodePolicy (mergeChunk lower policy chunk rule))
          (deterministicPolicyHash wire (mergeChunk lower policy chunk rule))) := by
  simp only [mergeChunkIntoPolicy, ready.1, run_orInternal_ok_bind]
  exact run_mergeAttempts wire lower 4 ready.2

theorem run_mergeChunkIntoPolicy_error
    (unready : ¬ ∃ rule policy, Mergeable wire store sandboxId chunk rule policy) :
    ∃ status, (mergeChunkIntoPolicy wire lower sandboxId chunk).run Store.exec store =
      (.error status, store) := by
  unfold mergeChunkIntoPolicy
  cases decodedRule : wire.decodeRule chunk.proposedRule with
  | error text => exact ⟨_, run_orInternal_error_bind _ text _ store⟩
  | ok rule =>
    simp only [run_orInternal_ok_bind]
    cases decoded : currentPolicy wire store sandboxId with
    | error text => exact ⟨_, run_mergeAttempts_error wire lower 4 decoded⟩
    | ok policy => exact absurd ⟨rule, policy, decodedRule, decoded⟩ unready

end Merge

section Remove

variable {store : Store Blob} {sandboxId : String} {chunk : DraftChunkRecord Blob}

def Removable (store : Store Blob) (sandboxId : String) (policy : SandboxPolicy) : Prop :=
  ∃ record, store.getLatestPolicy sandboxId = some record ∧
    wire.decodePolicy record.policyPayload = .ok policy

theorem run_removeChunkFromPolicy {policy : SandboxPolicy}
    (ready : Removable wire store sandboxId policy) :
    (removeChunkFromPolicy wire sandboxId chunk).run Store.exec store =
      (.ok (store.latestVersion sandboxId + 1, deterministicPolicyHash wire (removeChunk policy chunk)),
        store.appendRevision sandboxId (wire.encodePolicy (removeChunk policy chunk))
          (deterministicPolicyHash wire (removeChunk policy chunk))) := by
  obtain ⟨record, found, decoded⟩ := ready
  have version : store.latestVersion sandboxId = record.version := by
    simp only [Store.latestVersion, found, Option.elim_some]
  have attempt := run_putRevision wire store sandboxId (removeChunk policy chunk)
  rw [version] at attempt ⊢
  simp only [removeChunkFromPolicy, mergeRetryLimit]
  rw [removeAttempts]
  simp only [run_ask_bind, Store.exec, run_orInternal_ok_bind, found, run_orElse_some_bind, decoded]
  rw [run_bind_of_ok attempt]
  rfl

theorem run_removeChunkFromPolicy_error
    (unready : ¬ ∃ policy, Removable wire store sandboxId policy) :
    ∃ status, (removeChunkFromPolicy wire sandboxId chunk).run Store.exec store =
      (.error status, store) := by
  simp only [removeChunkFromPolicy, mergeRetryLimit]
  rw [removeAttempts]
  simp only [run_ask_bind, Store.exec, run_orInternal_ok_bind]
  cases found : store.getLatestPolicy sandboxId with
  | none => exact ⟨_, run_orElse_none_bind _ _ store⟩
  | some record =>
    simp only [run_orElse_some_bind]
    cases decoded : wire.decodePolicy record.policyPayload with
    | error text => exact ⟨_, run_orInternal_error_bind _ text _ store⟩
    | ok policy => exact absurd ⟨policy, record, found, decoded⟩ unready

end Remove

end OpenShell.Server
