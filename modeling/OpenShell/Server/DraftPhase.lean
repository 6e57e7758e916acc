import OpenShell.Lib.Phases
import OpenShell.Server.ChunkRule
import OpenShell.Server.WriterContract

namespace OpenShell.Server

open OpenShell.Policy Effects Effects.Fallible Relational

variable {Blob α β : Type} (wire : Wire Blob) (lower : String → String)

namespace Store

def Approved (store : Store Blob) (chunkId : String) : Prop :=
  ∃ row, store.chunks.lookup chunkId = some row ∧ row.status = .approved

def Grants (store : Store Blob) (chunk : DraftChunkRecord Blob) : Prop :=
  ∃ now, currentPolicy wire store chunk.sandboxId = .ok now ∧ chunk.grant ∈ granted lower now

def HasVersion (store : Store Blob) (sandboxId : String) (version : Nat) : Prop :=
  ∃ payload, store.HasRevision sandboxId version payload

/-- The newest revision is still the one it was, or its successor has been written. -/
def RevisionsMove (sandboxId : String) (store after : Store Blob) : Prop :=
  (∀ version, store.HasVersion sandboxId version → after.HasVersion sandboxId version) ∧
    (after.latestVersion sandboxId = store.latestVersion sandboxId ∧
        currentPolicy wire after sandboxId = currentPolicy wire store sandboxId ∨
      after.HasVersion sandboxId (store.latestVersion sandboxId + 1))

def ReadAt (sandboxId : String) (latest : Option (PolicyRecord Blob)) (store : Store Blob) : Prop :=
  store.latestVersion sandboxId = latest.elim 0 PolicyRecord.version ∧
      currentPolicy wire store sandboxId =
        latest.elim (.ok {}) (fun record => wire.decodePolicy record.policyPayload) ∨
    store.HasVersion sandboxId (latest.elim 0 PolicyRecord.version + 1)

end Store

inductive Direction where
  | granting | withdrawing
deriving DecidableEq

def Direction.Met : Direction → Prop → Prop
  | .granting, fact => fact
  | .withdrawing, fact => ¬ fact

theorem Direction.met_congr {direction : Direction} {first second : Prop} (same : first ↔ second) :
    direction.Met first ↔ direction.Met second := by
  cases direction with
  | granting => exact same
  | withdrawing => exact not_congr same

section Phase

variable (start : Store Blob) (chunk : DraftChunkRecord Blob)

/-- The chunk's row keeps its proposal, and only the chunk's own rule covers its endpoint. -/
structure Governed (store : Store Blob) : Prop where
  sandboxes : store.sandboxes = start.sandboxes
  row : ∃ status decidedAtMs, store.chunks.lookup chunk.id = some (chunk.decide status decidedAtMs)
  policy : ∃ now, currentPolicy wire store chunk.sandboxId = .ok now ∧ SoleRule lower chunk now

def StatusAgrees (store : Store Blob) : Prop :=
  store.Grants wire lower chunk ↔ store.Approved chunk.id

/-- While decisions of one direction are under way the policy leads and the status follows. -/
def draftPhase (direction : Direction) : Phase (Store Blob) where
  invariant store := Governed wire lower start chunk store ∧
    (direction.Met (store.Approved chunk.id) → direction.Met (store.Grants wire lower chunk))
  evolves store after := store.RevisionsMove wire chunk.sandboxId after ∧
    (direction.Met (store.Grants wire lower chunk) → direction.Met (after.Grants wire lower chunk))
  settled store := direction.Met (store.Grants wire lower chunk) → direction.Met (store.Approved chunk.id)

def Store.Carries (op : StoreOp Blob) (store : Store Blob) (answer : op.Answer) (after : Store Blob) : Prop :=
  Store.exec op store = (answer, after)

def SettlesCall (direction : Direction) (program : Handler Blob α) (known : Store Blob → Prop)
    (owes : Bool) : Prop :=
  (draftPhase wire lower start chunk direction).Settles (fun op store => store.Carries op) program known owes

end Phase

variable {wire lower} {start store : Store Blob} {chunk : DraftChunkRecord Blob} {direction : Direction}
  {known : Store Blob → Prop}

/-! What moves and what does not. -/

theorem approved_of_row {status : ChunkStatus} {decidedAtMs : Option Int}
    (row : store.chunks.lookup chunk.id = some (chunk.decide status decidedAtMs)) :
    store.Approved chunk.id ↔ status = .approved := by
  constructor
  · intro ⟨found, held, approved⟩
    rw [row] at held
    cases held
    exact approved
  · intro approved
    exact ⟨_, row, approved⟩

theorem grants_of_policy {now : SandboxPolicy} (current : currentPolicy wire store chunk.sandboxId = .ok now) :
    store.Grants wire lower chunk ↔ chunk.grant ∈ granted lower now := by
  constructor
  · intro ⟨other, held, allowed⟩
    rw [current] at held
    cases held
    exact allowed
  · intro allowed
    exact ⟨now, current, allowed⟩

theorem revisionsMove_refl (sandboxId : String) (store : Store Blob) :
    store.RevisionsMove wire sandboxId store :=
  ⟨fun _ held => held, Or.inl ⟨rfl, rfl⟩⟩

theorem evolves_refl (direction : Direction) (store : Store Blob) :
    (draftPhase wire lower start chunk direction).evolves store store :=
  ⟨revisionsMove_refl _ store, fun met => met⟩

theorem readAt_stable (latest : Option (PolicyRecord Blob)) :
    (draftPhase wire lower start chunk direction).Stable
      (Store.ReadAt wire chunk.sandboxId latest) := by
  intro state next _ read moved
  obtain ⟨⟨grown, newest⟩, _⟩ := moved
  rcases read with ⟨version, policy⟩ | taken
  · rcases newest with ⟨sameVersion, samePolicy⟩ | written
    · exact Or.inl ⟨sameVersion.trans version, samePolicy.trans policy⟩
    · rw [version] at written
      exact Or.inr written
  · exact Or.inr (grown _ taken)

theorem granted_stable (fact : Prop) :
    (draftPhase wire lower start chunk direction).Stable
      (fun store => fact → direction.Met (store.Grants wire lower chunk)) :=
  fun _ _ _ met moved given => moved.2 (met given)

/-! Rules for the programs of the handlers. -/

theorem SettlesCall.weaken {program : Handler Blob α} {stronger : Store Blob → Prop} {owes : Bool}
    (settles : SettlesCall wire lower start chunk direction program known owes)
    (implies : ∀ store, stronger store → known store) :
    SettlesCall wire lower start chunk direction program stronger owes :=
  Phase.Settles.weaken settles implies

theorem SettlesCall.stop (status : Status) :
    SettlesCall wire lower start chunk direction (fail status : Handler Blob α) known false := rfl

def StoreOp.reads : StoreOp Blob → Bool
  | .getSettings _ | .getSandboxByName _ | .getSandbox _ | .getLatestPolicy _ | .getDraftChunk _
  | .listDraftChunks .. | .currentTimeMs => true
  | _ => false

theorem carries_reads (op : StoreOp Blob) (state : Store Blob) (answer : op.Answer) (after : Store Blob)
    (reads : op.reads = true) (carried : state.Carries op answer after) : after = state := by
  cases op with
  | getSettings _ | getSandboxByName _ | getSandbox _ | getLatestPolicy _ | getDraftChunk _
  | listDraftChunks _ _ | currentTimeMs => exact (Prod.mk.inj carried).2.symm
  | _ => cases reads

theorem SettlesCall.after {first : Handler Blob α} {next : α → Handler Blob β}
    (sends : Sends (fun op => op.reads = true) first)
    (stable : (draftPhase wire lower start chunk direction).Stable known)
    (rest : ∀ value, SettlesCall wire lower start chunk direction (next value) known false) :
    SettlesCall wire lower start chunk direction (first >>= next) known false := by
  apply Phase.Settles.after sends.requests
  · exact carries_reads
  · exact evolves_refl direction
  · exact stable
  · intro result
    cases result with
    | ok value => exact rest value
    | error status => rfl

theorem SettlesCall.read {op : StoreOp Blob} {next : op.Answer → Handler Blob α} {owes : Bool}
    (reads : op.reads = true)
    (rest : ∀ state, (draftPhase wire lower start chunk direction).invariant state → known state →
      ∃ learnt, (draftPhase wire lower start chunk direction).Stable learnt ∧ learnt state ∧
        SettlesCall wire lower start chunk direction (next (Store.exec op state).1) learnt owes) :
    SettlesCall wire lower start chunk direction (ask op >>= next) known owes := by
  intro state answer after holds true_now carried
  have unchanged := carries_reads op state answer after reads carried
  have answered : answer = (Store.exec op state).1 := (congrArg Prod.fst carried).symm
  subst unchanged
  obtain ⟨learnt, stable, true_next, continues⟩ := rest after holds true_now
  rw [← answered] at continues
  exact ⟨holds, evolves_refl direction after, learnt, owes, stable, true_next, fun before => before, continues⟩

def NamesOwner (start : Store Blob) (chunk : DraftChunkRecord Blob) (name : String) : Prop :=
  ∀ sandbox, start.getSandboxByName name = some sandbox → sandbox.id = chunk.sandboxId

theorem SettlesCall.fetchSandbox {name : String} {next : Sandbox → Handler Blob α}
    (owner : NamesOwner start chunk name)
    (rest : ∀ sandbox, sandbox.id = chunk.sandboxId →
      SettlesCall wire lower start chunk direction (next sandbox) (fun _ => True) false) :
    SettlesCall wire lower start chunk direction (Server.fetchSandbox name >>= next) (fun _ => True)
      false := by
  unfold Server.fetchSandbox
  rw [bind_assoc]
  apply SettlesCall.read rfl
  intro state holds _
  refine ⟨_, Discipline.stable_true _, True.intro, ?_⟩
  have same : state.getSandboxByName name = start.getSandboxByName name := by
    simp only [Store.getSandboxByName, holds.1.sandboxes]
  simp only [Store.exec, same]
  cases found : start.getSandboxByName name with
  | none => exact SettlesCall.stop sandboxNotFound
  | some sandbox => exact rest sandbox (owner sandbox found)

theorem SettlesCall.fetchChunk {next : DraftChunkRecord Blob → Handler Blob α}
    (rest : ∀ status decidedAtMs, SettlesCall wire lower start chunk direction
      (next (chunk.decide status decidedAtMs))
      (fun store => direction.Met (status = .approved) → direction.Met (store.Grants wire lower chunk)) false) :
    SettlesCall wire lower start chunk direction (Server.fetchChunk chunk.id >>= next) (fun _ => True)
      false := by
  unfold Server.fetchChunk
  rw [bind_assoc]
  apply SettlesCall.read rfl
  intro state holds _
  obtain ⟨status, decidedAtMs, row⟩ := holds.1.row
  refine ⟨_, granted_stable (direction.Met (status = .approved)), ?_, ?_⟩
  · intro met
    exact holds.2 ((Direction.met_congr (approved_of_row row)).mpr met)
  · simp only [Store.exec, row]
    exact rest status decidedAtMs

theorem SettlesCall.getLatest {next : Except String (Option (PolicyRecord Blob)) → Handler Blob α}
    (rest : ∀ latest, SettlesCall wire lower start chunk direction (next (.ok latest))
      (Store.ReadAt wire chunk.sandboxId latest) false) :
    SettlesCall wire lower start chunk direction (ask (.getLatestPolicy chunk.sandboxId) >>= next)
      (fun _ => True) false := by
  apply SettlesCall.read rfl
  intro state _ _
  exact ⟨_, readAt_stable (state.getLatestPolicy chunk.sandboxId), Or.inl ⟨rfl, rfl⟩, rest _⟩

theorem hasVersion_put {after : Store Blob} {sandboxId : String} {version : Nat} {payload : Blob} {hash : String}
    (written : store.putPolicyRevision sandboxId version payload hash = .ok after) :
    (∀ other, store.HasVersion sandboxId other → after.HasVersion sandboxId other) ∧
      after.HasVersion sandboxId version ∧ ¬ store.HasVersion sandboxId version := by
  refine ⟨?_, ⟨payload, ?_⟩, ?_⟩
  · intro other ⟨content, held⟩
    exact ⟨content, grows_put written _ _ _ held⟩
  · exact (hasRevision_put written).mpr (Or.inr ⟨rfl, rfl⟩)
  · intro ⟨content, held⟩
    exact put_free written held

theorem put_replaces {after : Store Blob} {latest : Option (PolicyRecord Blob)} {policy : SandboxPolicy}
    {hash : String} (read : store.ReadAt wire chunk.sandboxId latest)
    (put : store.putPolicyRevision chunk.sandboxId (latest.elim 0 PolicyRecord.version + 1)
      (wire.encodePolicy policy) hash = .ok after) :
    currentPolicy wire store chunk.sandboxId =
        latest.elim (.ok {}) (fun record => wire.decodePolicy record.policyPayload) ∧
      (∃ now, currentPolicy wire after chunk.sandboxId = .ok now ∧ now.Same policy) ∧
      store.RevisionsMove wire chunk.sandboxId after := by
  obtain ⟨grown, present, free⟩ := hasVersion_put put
  rcases read with ⟨version, current⟩ | taken
  · rw [← version] at put present
    obtain ⟨now, roundTrip, same⟩ := wire.policy_round_trip policy
    refine ⟨current, ⟨now, ?_, same⟩, grown, Or.inr present⟩
    simp only [currentPolicy, Store.getLatestPolicy_put put, Option.elim_some, Store.newRevision, roundTrip]
  · exact absurd taken free

theorem SettlesCall.insert {latest : Option (PolicyRecord Blob)} {policy : SandboxPolicy} {hash : String}
    {next : Except String Unit → Handler Blob α}
    (leads : ∀ before, latest.elim (.ok {}) (fun record => wire.decodePolicy record.policyPayload) = .ok before →
      SoleRule lower chunk before →
        SoleRule lower chunk policy ∧ direction.Met (chunk.grant ∈ granted lower policy))
    (written : SettlesCall wire lower start chunk direction (next (.ok ()))
      (fun store => direction.Met (store.Grants wire lower chunk)) true)
    (failed : ∀ text, SettlesCall wire lower start chunk direction (next (.error text)) (fun _ => True) false) :
    SettlesCall wire lower start chunk direction
      (ask (.putPolicyRevision chunk.sandboxId (latest.elim 0 PolicyRecord.version + 1)
        (wire.encodePolicy policy) hash) >>= next)
      (Store.ReadAt wire chunk.sandboxId latest) false := by
  intro state answer after holds read carried
  simp only [Store.Carries, Store.exec, Store.write] at carried
  cases put : state.putPolicyRevision chunk.sandboxId (latest.elim 0 PolicyRecord.version + 1)
      (wire.encodePolicy policy) hash with
  | error text =>
    rw [put] at carried
    cases carried
    exact ⟨holds, evolves_refl direction state, _, false, Discipline.stable_true _, True.intro,
      fun before => before, failed text⟩
  | ok result =>
    rw [put] at carried
    cases carried
    obtain ⟨current, ⟨now, currentNow, same⟩, moved⟩ := put_replaces read put
    obtain ⟨before, decoded, sole⟩ := holds.1.policy
    rw [current] at decoded
    obtain ⟨soleNow, met⟩ := leads before decoded sole
    have metNow : direction.Met (after.Grants wire lower chunk) := by
      apply (Direction.met_congr (grants_of_policy currentNow)).mpr
      rw [granted_congr lower same]
      exact met
    have frame := (Store.putPolicyRevision_ok put).2
    have governed : Governed wire lower start chunk after := by
      refine ⟨?_, ?_, now, currentNow, soleNow.congr same⟩
      · rw [frame]
        exact holds.1.sandboxes
      · rw [frame]
        exact holds.1.row
    exact ⟨⟨governed, fun _ => metNow⟩, ⟨moved, fun _ => metNow⟩, _, true,
      fun _ _ _ held evolved => evolved.2 held, metNow, fun _ => Or.inl rfl, written⟩

theorem currentPolicy_supersede (wire : Wire Blob) (store : Store Blob) (owner : String) (bound : Nat)
    (sandboxId : String) :
    currentPolicy wire (store.supersedeOlderPolicies owner bound) sandboxId =
        currentPolicy wire store sandboxId ∧
      (store.supersedeOlderPolicies owner bound).latestVersion sandboxId = store.latestVersion sandboxId := by
  simp only [currentPolicy, Store.latestVersion, Store.getLatestPolicy_supersede]
  cases store.getLatestPolicy sandboxId with
  | none => exact ⟨rfl, rfl⟩
  | some record => simp

theorem SettlesCall.supersede {version : Nat} {next : Except String Nat → Handler Blob α} {owes : Bool}
    (stable : (draftPhase wire lower start chunk direction).Stable known)
    (rest : ∀ answer, SettlesCall wire lower start chunk direction (next answer) known owes) :
    SettlesCall wire lower start chunk direction
      (ask (.supersedeOlderPolicies chunk.sandboxId version) >>= next) known owes := by
  intro state answer after holds true_now carried
  have moved : after = state.supersedeOlderPolicies chunk.sandboxId version := (Prod.mk.inj carried).2.symm
  subst moved
  obtain ⟨samePolicy, sameVersion⟩ :=
    currentPolicy_supersede wire state chunk.sandboxId version chunk.sandboxId
  have sameGrants : (state.supersedeOlderPolicies chunk.sandboxId version).Grants wire lower chunk ↔
      state.Grants wire lower chunk := by
    unfold Store.Grants
    rw [samePolicy]
  have grown : ∀ other, state.HasVersion chunk.sandboxId other →
      (state.supersedeOlderPolicies chunk.sandboxId version).HasVersion chunk.sandboxId other := by
    intro other ⟨payload, held⟩
    have silent : (StoreOp.supersedeOlderPolicies chunk.sandboxId version : StoreOp Blob).inserts = false := rfl
    exact ⟨payload, (hasRevision_exec silent).mpr held⟩
  have governed : Governed wire lower start chunk (state.supersedeOlderPolicies chunk.sandboxId version) := by
    obtain ⟨sandboxes, row, now, current, sole⟩ := holds.1
    exact ⟨sandboxes, row, now, samePolicy.trans current, sole⟩
  have evolved : (draftPhase wire lower start chunk direction).evolves state
      (state.supersedeOlderPolicies chunk.sandboxId version) :=
    ⟨⟨grown, Or.inl ⟨sameVersion, samePolicy⟩⟩, (Direction.met_congr sameGrants).mpr⟩
  refine ⟨⟨governed, ?_⟩, evolved, known, owes, stable, stable _ _ holds true_now evolved, ?_, rest answer⟩
  · intro met
    exact (Direction.met_congr sameGrants).mpr (holds.2 met)
  · intro owed
    rcases owed with owing | settled
    · exact Or.inl owing
    · exact Or.inr fun met => settled ((Direction.met_congr sameGrants).mp met)

theorem SettlesCall.decide {status : ChunkStatus} {decidedAtMs : Option Int}
    {next : Bool → Handler Blob α} {owes : Bool} (follows : direction.Met (status = .approved))
    (ends : ∀ value, ∃ result, next value = pure result) :
    SettlesCall wire lower start chunk direction (setChunkStatus chunk.id status decidedAtMs >>= next)
      (fun store => direction.Met (store.Grants wire lower chunk)) owes := by
  intro state answer after holds met carried
  have moved : after = state.updateDraftChunkStatus chunk.id status decidedAtMs := (Prod.mk.inj carried).2.symm
  subst moved
  obtain ⟨earlier, decided, row⟩ := holds.1.row
  have rowNow : (state.updateDraftChunkStatus chunk.id status decidedAtMs).chunks.lookup chunk.id =
      some (chunk.decide status decidedAtMs) := by
    simp only [Store.updateDraftChunkStatus, Table.lookup_update, row]
    simp [DraftChunkRecord.decide]
  have approvedNow : direction.Met
      ((state.updateDraftChunkStatus chunk.id status decidedAtMs).Approved chunk.id) :=
    (Direction.met_congr (approved_of_row rowNow)).mpr follows
  have governed : Governed wire lower start chunk (state.updateDraftChunkStatus chunk.id status decidedAtMs) :=
    ⟨holds.1.sandboxes, ⟨status, decidedAtMs, rowNow⟩, holds.1.policy⟩
  refine ⟨⟨governed, fun _ => met⟩, ⟨revisionsMove_refl _ state, fun held => held⟩, _, false,
    Discipline.stable_true _, True.intro, fun _ => Or.inr fun _ => approvedNow, ?_⟩
  have answered : answer = .ok (state.chunks.lookup chunk.id).isSome := (congrArg Prod.fst carried).symm
  subst answered
  obtain ⟨result, ended⟩ := ends (state.chunks.lookup chunk.id).isSome
  show SettlesCall wire lower start chunk direction (next (state.chunks.lookup chunk.id).isSome) _ false
  rw [ended]
  rfl

end OpenShell.Server
