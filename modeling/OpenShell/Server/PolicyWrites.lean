import OpenShell.Lib.Text
import OpenShell.Server.Merge

namespace OpenShell.Server

open OpenShell.Policy Effects Effects.Fallible

variable {Blob : Type}

inductive Code where
  | invalidArgument | notFound | alreadyExists | failedPrecondition | internal | aborted | panicked
deriving DecidableEq

structure Status where
  code : Code
  message : String
deriving DecidableEq

/-- A gRPC handler or one of its helpers: a program over the store that may fail with a status. -/
abbrev Handler (Blob : Type) : Type → Type := Fallible (storeInterface Blob) Status

def ask (op : StoreOp Blob) : Handler Blob op.Answer := perform (I := storeInterface Blob) op

/-- `.map_err(|e| Status::internal(format!("…: {e}")))?`. -/
def orInternal {α : Type} (problem : String) : Except String α → Handler Blob α
  | .ok value => pure value
  | .error text => fail ⟨.internal, problem ++ ": " ++ text⟩

def orElse {α : Type} (status : Status) : Option α → Handler Blob α
  | some value => pure value
  | none => fail status

section Run

variable {α β : Type}

theorem orInternal_ok_bind (problem : String) (value : α) (next : α → Handler Blob β) :
    (orInternal problem (.ok value) >>= next) = next value := rfl

theorem orInternal_error_bind (problem text : String) (next : α → Handler Blob β) :
    (orInternal problem (.error text) >>= next) = fail ⟨.internal, problem ++ ": " ++ text⟩ := rfl

theorem orElse_some_bind (status : Status) (value : α) (next : α → Handler Blob β) :
    (orElse status (some value) >>= next) = next value := rfl

@[simp] theorem run_ask (op : StoreOp Blob) (store : Store Blob) :
    (ask op).run Store.exec store = (.ok (Store.exec op store).1, (Store.exec op store).2) := rfl

@[simp] theorem run_ask_bind (op : StoreOp Blob) (next : op.Answer → Handler Blob β)
    (store : Store Blob) :
    (ask op >>= next).run Store.exec store =
      (next (Store.exec op store).1).run Store.exec (Store.exec op store).2 :=
  run_perform_bind (I := storeInterface Blob) Store.exec op next store

theorem run_bind_of_ok {first : Handler Blob α} {store after : Store Blob} {value : α}
    (ran : first.run Store.exec store = (.ok value, after)) (next : α → Handler Blob β) :
    (first >>= next).run Store.exec store = (next value).run Store.exec after :=
  run_bind_ok (I := storeInterface Blob) Store.exec ran next

theorem run_bind_of_error {first : Handler Blob α} {store after : Store Blob} {status : Status}
    (ran : first.run Store.exec store = (.error status, after)) (next : α → Handler Blob β) :
    (first >>= next).run Store.exec store = (.error status, after) :=
  run_bind_error (I := storeInterface Blob) Store.exec ran next

theorem run_guard_bind (condition : Bool) (status : Status) (next : Unit → Handler Blob β)
    (store : Store Blob) :
    ((ensure condition status : Handler Blob Unit) >>= next).run Store.exec store =
      if condition then (next ()).run Store.exec store else (.error status, store) :=
  run_ensure_bind (I := storeInterface Blob) Store.exec condition status next store

theorem run_guard_bind_pass {condition : Bool} (holds : condition = true) (status : Status)
    (next : Unit → Handler Blob β) (store : Store Blob) :
    ((ensure condition status : Handler Blob Unit) >>= next).run Store.exec store =
      (next ()).run Store.exec store := by
  rw [run_guard_bind, if_pos holds]

theorem run_guard_bind_stop {condition : Bool} (fails : condition = false) (status : Status)
    (next : Unit → Handler Blob β) (store : Store Blob) :
    ((ensure condition status : Handler Blob Unit) >>= next).run Store.exec store =
      (.error status, store) := by
  rw [run_guard_bind, fails]
  rfl

@[simp] theorem run_orInternal_ok_bind (problem : String) (value : α) (next : α → Handler Blob β)
    (store : Store Blob) :
    (orInternal problem (.ok value) >>= next).run Store.exec store = (next value).run Store.exec store :=
  run_pure_bind Store.exec value next store

@[simp] theorem run_orInternal_error_bind (problem text : String) (next : α → Handler Blob β)
    (store : Store Blob) :
    (orInternal problem (.error text) >>= next).run Store.exec store =
      (.error ⟨.internal, problem ++ ": " ++ text⟩, store) :=
  run_fail_bind Store.exec _ next store

@[simp] theorem run_orElse_some_bind (status : Status) (value : α) (next : α → Handler Blob β)
    (store : Store Blob) :
    (orElse status (some value) >>= next).run Store.exec store = (next value).run Store.exec store :=
  run_pure_bind Store.exec value next store

@[simp] theorem run_orElse_none_bind (status : Status) (next : α → Handler Blob β)
    (store : Store Blob) :
    (orElse status none >>= next).run Store.exec store = (.error status, store) :=
  run_fail_bind Store.exec status next store

end Run

def mergeRetryLimit : Nat := 5

def isConflict (text : String) : Bool :=
  Text.contains text.toList "UNIQUE".toList || Text.contains text.toList "unique".toList ||
    Text.contains text.toList "duplicate".toList

variable (wire : Wire Blob) (lower : String → String)

/-- The insert that ends an attempt: `none` asks for another attempt after a version conflict. -/
def putRevision (sandboxId : String) (version : Nat) (policy : SandboxPolicy) :
    Handler Blob (Option (Nat × String)) := do
  let hash := deterministicPolicyHash wire policy
  match ← ask (.putPolicyRevision sandboxId version (wire.encodePolicy policy) hash) with
  | Except.ok () =>
    let _ ← ask (.supersedeOlderPolicies sandboxId version)
    pure (some (version, hash))
  | Except.error text =>
    if isConflict text then pure none
    else fail ⟨.internal, "persist policy revision failed: " ++ text⟩

def mergeBase : Option (PolicyRecord Blob) → Handler Blob (SandboxPolicy × Nat)
  | some record => do
    let policy ← orInternal "decode current policy failed" (wire.decodePolicy record.policyPayload)
    pure (policy, record.version)
  | none => pure ({}, 0)

theorem mergeBase_decoded {record : PolicyRecord Blob} {policy : SandboxPolicy}
    (decoded : wire.decodePolicy record.policyPayload = .ok policy) {β : Type}
    (next : SandboxPolicy × Nat → Handler Blob β) :
    (mergeBase wire (some record) >>= next) = next (policy, record.version) := by
  simp only [mergeBase, decoded, orInternal_ok_bind]
  rfl

theorem mergeBase_broken {record : PolicyRecord Blob} {text : String}
    (broken : wire.decodePolicy record.policyPayload = .error text) {β : Type}
    (next : SandboxPolicy × Nat → Handler Blob β) :
    (mergeBase wire (some record) >>= next) =
      fail ⟨.internal, "decode current policy failed" ++ ": " ++ text⟩ := by
  simp only [mergeBase, broken, orInternal_error_bind]
  rfl

/-- What holds of every failure, and of what follows on the policy that is read, holds of the whole. -/
theorem mergeBase_rule {latest : Option (PolicyRecord Blob)} {β : Type} {next : SandboxPolicy × Nat → Handler Blob β}
    (holds : Handler Blob β → Prop) (fails : ∀ status, holds (fail status))
    (rest : ∀ policy, latest.elim (.ok {}) (fun record => wire.decodePolicy record.policyPayload) = .ok policy →
      holds (next (policy, latest.elim 0 PolicyRecord.version))) : holds (mergeBase wire latest >>= next) := by
  cases latest with
  | none => exact rest {} rfl
  | some record =>
    cases decoded : wire.decodePolicy record.policyPayload with
    | error text =>
      rw [mergeBase_broken wire decoded]
      exact fails _
    | ok policy =>
      rw [mergeBase_decoded wire decoded]
      exact rest policy decoded

def mergeAttempts (sandboxId : String) (chunk : DraftChunkRecord Blob) (rule : NetworkPolicyRule) :
    Nat → Handler Blob (Nat × String)
  | 0 => fail ⟨.aborted, "merge_chunk_into_policy: gave up after " ++ toString mergeRetryLimit ++
      " version conflict retries for rule '" ++ chunk.ruleName ++ "'"⟩
  | attempts + 1 => do
    let latest ← orInternal "fetch latest policy failed" (← ask (.getLatestPolicy sandboxId))
    let (policy, baseVersion) ← mergeBase wire latest
    match ← putRevision wire sandboxId (baseVersion + 1) (mergeChunk lower policy chunk rule) with
    | some written => pure written
    | none => mergeAttempts sandboxId chunk rule attempts

def mergeChunkIntoPolicy (sandboxId : String) (chunk : DraftChunkRecord Blob) :
    Handler Blob (Nat × String) := do
  let rule ← orInternal "decode proposed_rule failed" (wire.decodeRule chunk.proposedRule)
  mergeAttempts wire lower sandboxId chunk rule mergeRetryLimit

def removeAttempts (sandboxId : String) (chunk : DraftChunkRecord Blob) :
    Nat → Handler Blob (Nat × String)
  | 0 => fail ⟨.aborted, "remove_chunk_from_policy: gave up after " ++ toString mergeRetryLimit ++
      " version conflict retries for rule '" ++ chunk.ruleName ++ "'"⟩
  | attempts + 1 => do
    let found ← orInternal "fetch latest policy failed" (← ask (.getLatestPolicy sandboxId))
    let latest ← orElse ⟨.internal, "no active policy to undo from"⟩ found
    let policy ← orInternal "decode current policy failed" (wire.decodePolicy latest.policyPayload)
    match ← putRevision wire sandboxId (latest.version + 1) (removeChunk policy chunk) with
    | some written => pure written
    | none => removeAttempts sandboxId chunk attempts

def removeChunkFromPolicy (sandboxId : String) (chunk : DraftChunkRecord Blob) :
    Handler Blob (Nat × String) :=
  removeAttempts wire sandboxId chunk mergeRetryLimit

end OpenShell.Server
