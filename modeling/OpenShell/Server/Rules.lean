import OpenShell.Server.Drafts

namespace OpenShell.Server

open OpenShell.Policy Effects Effects.Fallible

variable {Blob α β : Type} {store : Store Blob}

/-! Proof rules for whole calls: a call that refuses leaves the store as it was, and a call leaves an
invariant behind whatever it answers. -/

def Refuses (program : Handler Blob α) (store : Store Blob) : Prop :=
  ∃ status, program.run Store.exec store = (.error status, store)

theorem Refuses.guard {condition : Bool} {status : Status} {next : Unit → Handler Blob β}
    (rest : condition = true → Refuses (next ()) store) :
    Refuses ((ensure condition status : Handler Blob Unit) >>= next) store := by
  cases holds : condition with
  | true =>
    obtain ⟨problem, failed⟩ := rest holds
    exact ⟨problem, (run_guard_bind_pass rfl status next store).trans failed⟩
  | false => exact ⟨status, run_guard_bind_stop rfl status next store⟩

theorem Refuses.noGlobalPolicy {next : Unit → Handler Blob β}
    (rest : store.globalPolicy = false → Refuses (next ()) store) :
    Refuses (requireNoGlobalPolicy >>= next) store := by
  unfold Refuses
  rw [run_requireNoGlobalPolicy_bind]
  cases active : store.globalPolicy with
  | true => exact ⟨_, rfl⟩
  | false => exact rest active

theorem Refuses.fetchSandbox {name : String} {next : Sandbox → Handler Blob β}
    (rest : ∀ sandbox, store.getSandboxByName name = some sandbox → Refuses (next sandbox) store) :
    Refuses (OpenShell.Server.fetchSandbox name >>= next) store := by
  unfold Refuses
  rw [run_fetchSandbox_bind]
  cases found : store.getSandboxByName name with
  | none => exact ⟨_, rfl⟩
  | some sandbox => exact rest sandbox found

theorem Refuses.fetchChunk {chunkId : String} {next : DraftChunkRecord Blob → Handler Blob β}
    (rest : ∀ chunk, store.chunks.lookup chunkId = some chunk → Refuses (next chunk) store) :
    Refuses (OpenShell.Server.fetchChunk chunkId >>= next) store := by
  unfold Refuses
  rw [run_fetchChunk_bind]
  cases found : store.chunks.lookup chunkId with
  | none => exact ⟨_, rfl⟩
  | some chunk => exact rest chunk found

theorem Refuses.orElse {value : Option α} {status : Status} {next : α → Handler Blob β}
    (rest : ∀ given, value = some given → Refuses (next given) store) :
    Refuses (OpenShell.Server.orElse status value >>= next) store := by
  cases held : value with
  | none => exact ⟨_, run_orElse_none_bind status next store⟩
  | some given =>
    obtain ⟨problem, failed⟩ := rest given held
    exact ⟨problem, (run_orElse_some_bind status given next store).trans failed⟩

theorem Refuses.bind {first : Handler Blob α} {next : α → Handler Blob β} (stops : Refuses first store) :
    Refuses (first >>= next) store := by
  obtain ⟨status, failed⟩ := stops
  exact ⟨status, run_bind_of_error failed next⟩

section Leaves

variable {invariant : Store Blob → Prop}

/-- The store a call leaves behind, whatever it answers, satisfies the invariant. -/
def Leaves (invariant : Store Blob → Prop) (program : Handler Blob α) (store : Store Blob) : Prop :=
  invariant (program.run Store.exec store).2

theorem Leaves.bind {first : Handler Blob α} {next : α → Handler Blob β}
    (before : Leaves invariant first store)
    (rest : ∀ value after, first.run Store.exec store = (.ok value, after) → invariant after →
      Leaves invariant (next value) after) : Leaves invariant (first >>= next) store := by
  unfold Leaves at before ⊢
  cases ran : first.run Store.exec store with
  | mk result after =>
    rw [ran] at before
    cases result with
    | ok value =>
      rw [run_bind_of_ok ran]
      exact rest value after ran before
    | error status =>
      rw [run_bind_of_error ran]
      exact before

theorem Leaves.guard (holds : invariant store) {condition : Bool} {status : Status}
    {next : Unit → Handler Blob β} (rest : condition = true → Leaves invariant (next ()) store) :
    Leaves invariant ((ensure condition status : Handler Blob Unit) >>= next) store := by
  unfold Leaves
  cases passes : condition with
  | true =>
    rw [run_guard_bind_pass rfl]
    exact rest passes
  | false =>
    rw [run_guard_bind_stop rfl]
    exact holds

theorem Leaves.orElse (holds : invariant store) {value : Option α} {status : Status}
    {next : α → Handler Blob β} (rest : ∀ given, value = some given → Leaves invariant (next given) store) :
    Leaves invariant (OpenShell.Server.orElse status value >>= next) store := by
  unfold Leaves
  cases held : value with
  | none =>
    rw [run_orElse_none_bind]
    exact holds
  | some given =>
    rw [run_orElse_some_bind]
    exact rest given held

theorem Leaves.lift (holds : invariant store) {result : Except Status α} {next : α → Handler Blob β}
    (rest : ∀ value, result = .ok value → Leaves invariant (next value) store) :
    Leaves invariant ((Fallible.lift result : Handler Blob α) >>= next) store := by
  unfold Leaves
  cases held : result with
  | error status =>
    rw [run_lift_error_bind]
    exact holds
  | ok value =>
    rw [run_lift_ok_bind]
    exact rest value held

theorem Leaves.fetchSandbox (holds : invariant store) {name : String} {next : Sandbox → Handler Blob β}
    (rest : ∀ sandbox, store.getSandboxByName name = some sandbox → Leaves invariant (next sandbox) store) :
    Leaves invariant (OpenShell.Server.fetchSandbox name >>= next) store := by
  unfold Leaves
  rw [run_fetchSandbox_bind]
  cases found : store.getSandboxByName name with
  | none => exact holds
  | some sandbox => exact rest sandbox found

theorem Leaves.fetchChunk (holds : invariant store) {chunkId : String} {next : DraftChunkRecord Blob → Handler Blob β}
    (rest : ∀ chunk, store.chunks.lookup chunkId = some chunk → Leaves invariant (next chunk) store) :
    Leaves invariant (OpenShell.Server.fetchChunk chunkId >>= next) store := by
  unfold Leaves
  rw [run_fetchChunk_bind]
  cases found : store.chunks.lookup chunkId with
  | none => exact holds
  | some chunk => exact rest chunk found

theorem Leaves.noGlobalPolicy (holds : invariant store) {next : Unit → Handler Blob β}
    (rest : store.globalPolicy = false → Leaves invariant (next ()) store) :
    Leaves invariant (requireNoGlobalPolicy >>= next) store := by
  unfold Leaves
  rw [run_requireNoGlobalPolicy_bind]
  cases active : store.globalPolicy with
  | true => exact holds
  | false => exact rest active

theorem Leaves.approveAll (holds : invariant store) {wire : Wire Blob} {lower : String → String}
    (request : ApproveAllDraftChunksRequest)
    (each : ∀ sandboxId, Leaves invariant (approveEach wire lower sandboxId request.includeSecurityFlagged
      (store.listDraftChunks sandboxId (some .pending)) {}) store) :
    Leaves invariant (handleApproveAllDraftChunks wire lower request) store := by
  apply Leaves.guard holds
  intro _
  apply Leaves.noGlobalPolicy holds
  intro _
  apply Leaves.fetchSandbox holds
  intro sandbox _
  unfold Leaves
  rw [run_ask_bind]
  simp only [Store.exec, run_orInternal_ok_bind]
  apply Leaves.guard holds
  intro _
  exact each sandbox.id

end Leaves

end OpenShell.Server
