import OpenShell.Lib.Interleaving
import OpenShell.Server.Revisions
import OpenShell.Server.Sends

namespace OpenShell.Server

open OpenShell.Policy Effects Effects.Fallible Relational

variable {Blob : Type}

inductive WriterCall (Blob : Type) where
  | merge (sandboxId : String) (chunk : DraftChunkRecord Blob)
  | remove (sandboxId : String) (chunk : DraftChunkRecord Blob)
  | update (request : UpdateConfigRequest) (sandboxScoped : request.global = false)

def WriterCall.body (wire : Wire Blob) (lower : String → String) : WriterCall Blob → Handler Blob Unit
  | .merge sandboxId chunk => do
    let _ ← mergeChunkIntoPolicy wire lower sandboxId chunk
    pure ()
  | .remove sandboxId chunk => do
    let _ ← removeChunkFromPolicy wire sandboxId chunk
    pure ()
  | .update request _ => do
    let _ ← handleUpdateConfig wire request
    pure ()

def StoreOp.failure (text : String) : (op : StoreOp Blob) → op.Answer
  | .getSettings _ | .putSettings .. | .getSandboxByName _ | .getSandbox _ | .putSandbox _
  | .getLatestPolicy _ | .putPolicyRevision .. | .updatePolicyStatus .. | .supersedeOlderPolicies ..
  | .getDraftChunk _ | .listDraftChunks .. | .updateDraftChunkStatus .. | .updateDraftChunkRule ..
  | .deleteDraftChunks .. | .currentTimeMs => Except.error text

/-- One statement against the store: it is carried out, or it fails and changes nothing. -/
def Store.Performs (op : StoreOp Blob) (store : Store Blob) (answer : op.Answer) (after : Store Blob) :
    Prop :=
  Store.exec op store = (answer, after) ∨ ∃ text, answer = op.failure text ∧ after = store

namespace Store

def HasRevision (store : Store Blob) (sandboxId : String) (version : Nat) (payload : Blob) : Prop :=
  ∃ record ∈ store.policies, record.key = (sandboxId, version) ∧ record.policyPayload = payload

def Contiguous (store : Store Blob) : Prop :=
  ∀ sandboxId, ∃ newest, ∀ version,
    (∃ payload, store.HasRevision sandboxId version payload) ↔ 1 ≤ version ∧ version ≤ newest

def Grows (before after : Store Blob) : Prop :=
  ∀ sandboxId version payload, before.HasRevision sandboxId version payload →
    after.HasRevision sandboxId version payload

def WrittenUpTo (store : Store Blob) (sandboxId : String) (newest : Nat) : Prop :=
  ∀ version, 1 ≤ version → version ≤ newest → ∃ payload, store.HasRevision sandboxId version payload

end Store

def StoreOp.inserts : StoreOp Blob → Bool
  | .putPolicyRevision .. => true
  | _ => false

variable {store after : Store Blob} {sandboxId : String} {version : Nat} {payload : Blob} {hash : String}

theorem hasRevision_of_same (same : after.policies = store.policies) :
    after.HasRevision sandboxId version payload ↔ store.HasRevision sandboxId version payload := by
  unfold Store.HasRevision
  rw [same]

theorem hasRevision_changed {change : PolicyRecord Blob → PolicyRecord Blob}
    (rows : ∀ record, record ∈ after.policies ↔ ∃ old ∈ store.policies, record = change old)
    (keys : ∀ record, (change record).key = record.key)
    (payloads : ∀ record, (change record).policyPayload = record.policyPayload) :
    after.HasRevision sandboxId version payload ↔ store.HasRevision sandboxId version payload := by
  unfold Store.HasRevision
  constructor
  · intro ⟨record, member, key, held⟩
    obtain ⟨old, oldMember, same⟩ := (rows record).mp member
    subst same
    exact ⟨old, oldMember, (keys old).symm.trans key, (payloads old).symm.trans held⟩
  · intro ⟨old, member, key, held⟩
    exact ⟨change old, (rows _).mpr ⟨old, member, rfl⟩, (keys old).trans key, (payloads old).trans held⟩

theorem hasRevision_exec {op : StoreOp Blob} (silent : op.inserts = false) :
    (Store.exec op store).2.HasRevision sandboxId version payload ↔
      store.HasRevision sandboxId version payload := by
  cases op with
  | putPolicyRevision _ _ _ _ => cases silent
  | putSettings scope name settings =>
    simp only [Store.exec, Store.write]
    cases written : store.putSettings scope name settings with
    | ok result => exact hasRevision_of_same ((Store.putSettings_frame written).1)
    | error text => exact Iff.rfl
  | putSandbox message =>
    simp only [Store.exec, Store.write]
    cases written : store.putSandbox message with
    | ok result => exact hasRevision_of_same ((Store.putSandbox_rows written).1)
    | error text => exact Iff.rfl
  | updatePolicyStatus owner reported status loadError loadedAtMs =>
    apply hasRevision_changed (fun _ => Store.mem_updatePolicyStatus)
    · intro record
      split <;> rfl
    · intro record
      split <;> rfl
  | supersedeOlderPolicies owner bound =>
    apply hasRevision_changed (fun _ => Store.mem_supersedeOlderPolicies)
    · exact Store.supersedeRow_key owner bound
    · exact Store.supersedeRow_policyPayload owner bound
  | _ => exact Iff.rfl

theorem hasRevision_performs {op : StoreOp Blob} {answer : op.Answer} (silent : op.inserts = false)
    (performed : store.Performs op answer after) :
    after.HasRevision sandboxId version payload ↔ store.HasRevision sandboxId version payload := by
  rcases performed with executed | ⟨text, _, unchanged⟩
  · have same : after = (Store.exec op store).2 := by rw [executed]
    rw [same]
    exact hasRevision_exec silent
  · rw [unchanged]

theorem contiguous_of_same
    (same : ∀ sandboxId version payload, after.HasRevision sandboxId version payload ↔
      store.HasRevision sandboxId version payload) (contiguous : store.Contiguous) : after.Contiguous := by
  intro sandboxId
  obtain ⟨newest, versions⟩ := contiguous sandboxId
  refine ⟨newest, ?_⟩
  intro version
  rw [← versions version]
  exact exists_congr fun payload => same sandboxId version payload

theorem hasRevision_put (written : store.putPolicyRevision sandboxId version payload hash = .ok after)
    {owner : String} {other : Nat} {content : Blob} :
    after.HasRevision owner other content ↔
      store.HasRevision owner other content ∨ (owner, other) = (sandboxId, version) ∧ content = payload := by
  have rows := (Store.putPolicyRevision_ok written).1
  unfold Store.HasRevision
  simp only [Table.mem_rows, rows, List.mem_append, List.mem_singleton]
  constructor
  · intro ⟨record, member, key, held⟩
    rcases member with earlier | added
    · exact Or.inl ⟨record, earlier, key, held⟩
    · subst added
      exact Or.inr ⟨key.symm, held.symm⟩
  · intro either
    rcases either with ⟨record, earlier, key, held⟩ | ⟨same, content⟩
    · exact ⟨record, Or.inl earlier, key, held⟩
    · exact ⟨_, Or.inr rfl, same.symm, content.symm⟩

theorem put_free (written : store.putPolicyRevision sandboxId version payload hash = .ok after)
    {content : Blob} : ¬ store.HasRevision sandboxId version content := by
  intro ⟨record, member, key, _⟩
  unfold Store.putPolicyRevision at written
  split at written
  · rename_i policies inserted
    exact (Table.insert_some inserted).2 record member key
  · cases written

theorem grows_put (written : store.putPolicyRevision sandboxId version payload hash = .ok after) :
    store.Grows after :=
  fun _ _ _ held => (hasRevision_put written).mpr (Or.inl held)

theorem contiguous_put {base : Nat} (contiguous : store.Contiguous)
    (known : store.WrittenUpTo sandboxId base)
    (written : store.putPolicyRevision sandboxId (base + 1) payload hash = .ok after) :
    after.Contiguous := by
  intro owner
  obtain ⟨newest, versions⟩ := contiguous owner
  by_cases own : owner = sandboxId
  · subst own
    have atLeast : base ≤ newest := by
      rcases Nat.eq_zero_or_pos base with zero | positive
      · omega
      · exact ((versions base).mp (known base positive (Nat.le_refl _))).2
    have atMost : newest ≤ base := by
      by_contra beyond
      obtain ⟨content, taken⟩ := (versions (base + 1)).mpr ⟨by omega, by omega⟩
      exact put_free written taken
    refine ⟨base + 1, ?_⟩
    intro version
    constructor
    · intro ⟨content, held⟩
      rcases (hasRevision_put written).mp held with earlier | ⟨same, _⟩
      · have bound := (versions version).mp ⟨content, earlier⟩
        omega
      · have equal := congrArg Prod.snd same
        simp only at equal
        omega
    · intro bound
      by_cases last : version = base + 1
      · exact ⟨payload, (hasRevision_put written).mpr (Or.inr ⟨by rw [last], rfl⟩)⟩
      · obtain ⟨content, held⟩ := (versions version).mpr ⟨bound.1, by omega⟩
        exact ⟨content, grows_put written _ _ _ held⟩
  · refine ⟨newest, ?_⟩
    intro version
    rw [← versions version]
    constructor
    · intro ⟨content, held⟩
      rcases (hasRevision_put written).mp held with earlier | ⟨same, _⟩
      · exact ⟨content, earlier⟩
      · exact absurd (congrArg Prod.fst same) own
    · intro ⟨content, held⟩
      exact ⟨content, grows_put written _ _ _ held⟩

/-! The contract the writers keep. -/

section Contract

variable (wire : Wire Blob) (lower : String → String)

def inserted (sandboxId : String) (version : Nat) (payload : Blob) (hash : String) :
    Event (storeInterface Blob) :=
  ⟨.putPolicyRevision sandboxId version payload hash, (Except.ok () : Except String Unit)⟩

def StoreOp.wrote : (op : StoreOp Blob) → op.Answer → Bool
  | .putPolicyRevision .., Except.ok _ => true
  | _, _ => false

def wrote (event : Event (storeInterface Blob)) : Bool := StoreOp.wrote event.op event.answer

/-- Where the payload of a revision comes from: a merge or a removal was applied to the payload of
    the revision before it, or to the empty policy when there was none. -/
def WriterCall.Accounts (sandboxId : String) (version : Nat) (payload : Blob) (store : Store Blob) :
    WriterCall Blob → Prop
  | .merge target chunk => sandboxId = target ∧ ∃ base rule policy, version = base + 1 ∧
      wire.decodeRule chunk.proposedRule = .ok rule ∧
      (base = 0 ∧ policy = {} ∨
        ∃ held, store.HasRevision sandboxId base held ∧ wire.decodePolicy held = .ok policy) ∧
      payload = wire.encodePolicy (mergeChunk lower policy chunk rule)
  | .remove target chunk => sandboxId = target ∧ ∃ base policy held, version = base + 1 ∧
      store.HasRevision sandboxId base held ∧ wire.decodePolicy held = .ok policy ∧
      payload = wire.encodePolicy (removeChunk policy chunk)
  | .update _ _ => True

def WriterCall.Records (call : WriterCall Blob) (event : Event (storeInterface Blob))
    (store : Store Blob) : Prop :=
  ∀ sandboxId version payload hash, event = inserted sandboxId version payload hash →
    store.HasRevision sandboxId version payload ∧
      call.Accounts wire lower sandboxId version payload store

def writerContract : Contract (storeInterface Blob) (Store Blob) (WriterCall Blob) where
  invariant := Store.Contiguous
  evolves := Store.Grows
  records := WriterCall.Records wire lower

variable {wire lower}

theorem accounts_grow {call : WriterCall Blob} (grown : store.Grows after)
    (accounts : call.Accounts wire lower sandboxId version payload store) :
    call.Accounts wire lower sandboxId version payload after := by
  cases call with
  | merge target chunk =>
    obtain ⟨owner, base, rule, policy, next, decodedRule, source, same⟩ := accounts
    refine ⟨owner, base, rule, policy, next, decodedRule, ?_, same⟩
    rcases source with fresh | ⟨held, present, decoded⟩
    · exact Or.inl fresh
    · exact Or.inr ⟨held, grown _ _ _ present, decoded⟩
  | remove target chunk =>
    obtain ⟨owner, base, policy, held, next, present, decoded, same⟩ := accounts
    exact ⟨owner, base, policy, held, next, grown _ _ _ present, decoded, same⟩
  | update _ _ => exact True.intro

theorem records_stable (call : WriterCall Blob) (event : Event (storeInterface Blob)) :
    (writerContract wire lower).Stable (WriterCall.Records wire lower call event) := by
  intro state next _ recorded grown sandboxId version payload hash same
  obtain ⟨present, accounts⟩ := recorded sandboxId version payload hash same
  exact ⟨grown _ _ _ present, accounts_grow grown accounts⟩

theorem records_of_unwritten {call : WriterCall Blob} {event : Event (storeInterface Blob)}
    (unwritten : wrote event = false) : call.Records wire lower event after := by
  intro sandboxId version payload hash same
  rw [same] at unwritten
  cases unwritten

theorem silent_keeps {call : WriterCall Blob} (op : StoreOp Blob) (state : Store Blob) (answer : op.Answer)
    (after : Store Blob) (silent : op.inserts = false) (contiguous : state.Contiguous)
    (performed : state.Performs op answer after) :
    after.Contiguous ∧ state.Grows after ∧ call.Records wire lower ⟨op, answer⟩ after := by
  refine ⟨contiguous_of_same (fun _ _ _ => hasRevision_performs silent performed) contiguous, ?_, ?_⟩
  · intro sandboxId version payload held
    exact (hasRevision_performs silent performed).mpr held
  · apply records_of_unwritten
    cases op with
    | putPolicyRevision _ _ _ _ => cases silent
    | _ => rfl

end Contract

end OpenShell.Server
