import OpenShell.Lib.Machine
import OpenShell.Server.Gateway

namespace OpenShell.Server.Gateway

open OpenShell.Policy

/-! `handle_delete_sandbox`, and the sweep of the session reaper. -/

def tracingEvent (name level target message : String) (fields : List (String × String)) : TracingEvent :=
  { name, level, target, fields := ("message", message) :: fields }

/-- An event of `grpc/sandbox.rs`, known by its line. -/
def handlerEvent (line : Nat) (level message : String) (fields : List (String × String)) : TracingEvent :=
  tracingEvent ("event crates/openshell-server/src/grpc/sandbox.rs:" ++ toString line) level
    "openshell_server::grpc::sandbox" message fields

/-- An event of `sandbox/mod.rs`. -/
def clusterEvent (line : Nat) (level message : String) (fields : List (String × String)) : TracingEvent :=
  tracingEvent ("event crates/openshell-server/src/sandbox/mod.rs:" ++ toString line) level
    "openshell_server::sandbox" message fields

def reaperEvent (line : Nat) (level message : String) (fields : List (String × String)) : TracingEvent :=
  tracingEvent ("event crates/openshell-server/src/ssh_tunnel.rs:" ++ toString line) level
    "openshell_server::ssh_tunnel" message fields

/-! The two sweeps read the first page of the sessions and delete those that they want to be gone. -/

def sessionPage : Nat := 1000

/-- The statements of a sweep that fail: the list, and the deletion of a session by its id. -/
structure SweepOutside where
  listError : Option String := none
  deleteError : String → Option String := fun _ => none

section Sweep

variable (tracing : Tracing) (outside : SweepOutside) (wanted : SshSession → Bool)
  (warning : SshSession → String → TracingEvent)

def sweepRecord (state : ServerState) (record : ObjectRecord Object) : ServerState :=
  match record.message.session? with
  | none => state
  | some session =>
    if wanted session then
      match outside.deleteError session.id with
      | some error => state.trace tracing (warning session error)
      | none => { state with objects := (state.objects.delete "ssh_session" session.id).2 }
    else state

def listSessions (objects : StoredObjects) : Except String (List (ObjectRecord Object)) :=
  attempt outside.listError (.ok (objects.list "ssh_session" sessionPage 0))

def sweep (page : List (ObjectRecord Object)) (state : ServerState) : ServerState :=
  page.foldl (sweepRecord tracing outside wanted warning) state

end Sweep

/-- Expired (zero stands for no expiry), or revoked. -/
def shouldDelete (nowMs : Int) (session : SshSession) : Bool :=
  (0 < session.expiresAtMs && session.expiresAtMs < nowMs) || session.revoked

def isReaped (outside : SweepOutside) (nowMs : Int) (record : ObjectRecord Object) : Bool :=
  record.message.session?.any fun session => shouldDelete nowMs session && (outside.deleteError session.id).isNone

def reapExpiredSessions (tracing : Tracing) (outside : SweepOutside) (nowMs : Int) (state : ServerState) :
    Except String Unit × ServerState :=
  match listSessions outside state.objects with
  | .error error => (.error error, state)
  | .ok records =>
    let swept := sweep tracing outside (shouldDelete nowMs)
      (fun session error => reaperEvent 415 "WARN" "Failed to reap SSH session"
        [("session_id", session.id), ("error", error)]) records state
    let reaped := records.countP (isReaped outside nowMs)
    (.ok (), if 0 < reaped then
      swept.trace tracing (reaperEvent 423 "INFO" "SSH session reaper: cleaned up sessions" [("count", toString reaped)])
    else swept)

/-! The handler. -/

/-- The answer of the cluster to the deletion of a sandbox. -/
inductive KubeDelete where
  | deleted
  | notFound
  | failed (error : String)
  | timedOut (error : String)

structure DeleteOutside where
  fetchError : Option String := none
  putError : Option String := none
  sessions : SweepOutside := {}
  settingsError : Option String := none
  clusterNamespace : String := "openshell"
  cluster : KubeDelete := .deleted
  recordError : Option String := none

section Delete

variable (tracing : Tracing) (outside : DeleteOutside)

/-- `SandboxClient::delete`. -/
def kubeDelete (name : String) (state : ServerState) : Except String Bool × ServerState :=
  let state := state.trace tracing (clusterEvent 276 "INFO" "Deleting sandbox from Kubernetes"
    [("sandbox_name", name), ("namespace", outside.clusterNamespace)])
  match outside.cluster with
  | .deleted => (.ok true,
      state.trace tracing (clusterEvent 287 "INFO" "Sandbox deleted from Kubernetes" [("sandbox_name", name)]))
  | .notFound => (.ok false, state.trace tracing (clusterEvent 291 "DEBUG"
      "Sandbox not found in Kubernetes (already deleted)" [("sandbox_name", name)]))
  | .failed error => (.error error, state.trace tracing (clusterEvent 295 "WARN"
      "Failed to delete sandbox from Kubernetes" [("sandbox_name", name), ("error", error)]))
  | .timedOut error => (.error error, state.trace tracing (clusterEvent 303 "WARN"
      "Timed out deleting sandbox from Kubernetes" [("sandbox_name", name), ("timeout_secs", "30")]))

def cleanUpSessions (id : String) (state : ServerState) : ServerState :=
  match listSessions outside.sessions state.objects with
  | .error _ => state
  | .ok records => sweep tracing outside.sessions (fun session => session.sandboxId = id)
      (fun session error => handlerEvent 259 "WARN" "Failed to delete SSH session during sandbox cleanup"
        [("session_id", session.id), ("error", error)]) records state

def cleanUpSettings (id : String) (state : ServerState) : ServerState :=
  match outside.settingsError with
  | some error => state.trace tracing (handlerEvent 277 "WARN" "Failed to delete sandbox settings during cleanup"
      [("sandbox_id", id), ("error", error)])
  | none => { state with objects := (state.objects.delete "sandbox_settings" ("settings:" ++ id)).2 }

/-- The cluster had no such sandbox, so no watcher will remove the record. -/
def removeRecord (id : String) (state : ServerState) : ServerState :=
  match outside.recordError with
  | some error => state.trace tracing (handlerEvent 300 "WARN" "Failed to clean up store after delete"
      [("sandbox_id", id), ("error", error)])
  | none => { state with objects := (state.objects.delete "sandbox" id).2 }

def deleteCompleted (sandbox : Sandbox) : TracingEvent :=
  handlerEvent 308 "INFO" "DeleteSandbox request completed successfully"
    [("sandbox_id", sandbox.id), ("sandbox_name", sandbox.name)]

def markedDeleting (sandbox : Sandbox) (objects : StoredObjects) (state : ServerState) : ServerState where
  objects := objects
  index := state.index.updateFromSandbox sandbox
  buses := state.buses.notify sandbox.id

def finishDelete (sandbox : Sandbox) (deleted : Bool) (state : ServerState) : ServerState :=
  let state := if deleted then state else removeRecord tracing outside sandbox.id state
  { state with buses := state.buses.remove sandbox.id }.trace tracing (deleteCompleted sandbox)

def deleteMarked (sandbox : Sandbox) (state : ServerState) : Except Status Bool × ServerState :=
  match mapInternal "persist sandbox failed"
    (attempt outside.putError (state.objects.put tracing.nowMs (.sandbox sandbox))) with
  | .error status => (.error status, state)
  | .ok objects =>
    let state := cleanUpSettings tracing outside sandbox.id
      (cleanUpSessions tracing outside sandbox.id (markedDeleting sandbox objects state))
    match kubeDelete tracing outside sandbox.name state with
    | (.error error, state) => (.error ⟨.internal, "delete sandbox in kubernetes failed: " ++ error⟩,
        state.trace tracing (handlerEvent 287 "WARN" "DeleteSandbox request failed"
          [("sandbox_id", sandbox.id), ("sandbox_name", sandbox.name), ("error", error)]))
    | (.ok deleted, state) => (.ok deleted, finishDelete tracing outside sandbox deleted state)

def handleDeleteSandbox (name : String) (state : ServerState) : Except Status Bool × ServerState :=
  if name = "" then (.error (invalidArgument "name is required"), state)
  else
    match mapInternal "fetch sandbox failed"
      (attempt outside.fetchError (.ok (getSandboxByName state.objects name))) with
    | .error status => (.error status, state)
    | .ok none => (.error ⟨.notFound, "sandbox not found"⟩, state)
    | .ok (some sandbox) => deleteMarked tracing outside { sandbox with phase := .deleting } state

end Delete

/-! What a call that succeeds has done. -/

variable {tracing : Tracing} {outside : DeleteOutside} {name : String} {state after : ServerState} {deleted : Bool}
  {sandbox : Sandbox}

theorem deleteMarked_ok (succeeded : deleteMarked tracing outside sandbox state = (.ok deleted, after)) :
    ∃ objects before, state.objects.put tracing.nowMs (.sandbox sandbox) = .ok objects ∧
      kubeDelete tracing outside sandbox.name (cleanUpSettings tracing outside sandbox.id
        (cleanUpSessions tracing outside sandbox.id (markedDeleting sandbox objects state))) = (.ok deleted, before) ∧
      after = finishDelete tracing outside sandbox deleted before := by
  unfold deleteMarked at succeeded
  split at succeeded
  · cases succeeded
  · rename_i objects put
    dsimp only at succeeded
    split at succeeded
    · cases succeeded
    · rename_i answer before asked
      cases succeeded
      exact ⟨objects, before, (attempt_ok put).2, asked, rfl⟩

theorem handleDeleteSandbox_ok (found : getSandboxByName state.objects name = some sandbox)
    (succeeded : handleDeleteSandbox tracing outside name state = (.ok deleted, after)) :
    deleteMarked tracing outside { sandbox with phase := .deleting } state = (.ok deleted, after) := by
  unfold handleDeleteSandbox at succeeded
  split at succeeded
  · cases succeeded
  · split at succeeded
    · cases succeeded
    · cases succeeded
    · rename_i fetched
      have same := Except.ok.inj (attempt_ok fetched).2
      rw [found] at same
      cases same
      exact succeeded

theorem free_of_deleted (found : getSandboxByName state.objects name = some sandbox)
    (succeeded : handleDeleteSandbox tracing outside name state = (.ok deleted, after)) :
    after.buses.Free sandbox.id ↔ tracing.enabled (deleteCompleted { sandbox with phase := .deleting }) = false := by
  obtain ⟨objects, before, -, -, rfl⟩ := deleteMarked_ok (handleDeleteSandbox_ok found succeeded)
  exact Buses.free_trace_iff (Buses.free_remove _ sandbox.id) rfl

/-- The last event of the handler comes after the removals, and the log bus gets an entry from it. -/
theorem deletion_frees_buses_iff (prior : List Buses.Event)
    (found : getSandboxByName state.objects name = some sandbox)
    (succeeded : handleDeleteSandbox tracing outside name
      { state with buses := Machine.run (Buses.step tracing.enabled) state.buses prior } = (.ok deleted, after)) :
    after.buses.Free sandbox.id ↔ tracing.enabled (deleteCompleted { sandbox with phase := .deleting }) = false := by
  let watched : ServerState := { state with buses := Machine.run (Buses.step tracing.enabled) state.buses prior }
  have present : getSandboxByName watched.objects name = some sandbox := found
  exact free_of_deleted present succeeded

def beta : Sandbox := { id := "sb", name := "beta" }

def betaRecord : ObjectRecord Object := ⟨"beta", .sandbox beta, 0⟩

def betaState : ServerState :=
  { objects := ⟨⟨[betaRecord], List.nodup_singleton _⟩, List.nodup_singleton _⟩ }

/-- The filter of the log level `warn`. -/
def warnOnly : Tracing := ⟨fun event => event.level = "WARN" || event.level = "ERROR", 5⟩

/-- The filter of the log level `info`, the default of the gateway. -/
def infoLevel : Tracing := ⟨fun event => event.level ≠ "DEBUG" && event.level ≠ "TRACE", 5⟩

def watched : List Buses.Event := [.notify "sb", .subscribeLog "sb"]

def watchedState (tracing : Tracing) : ServerState :=
  { betaState with buses := Machine.run (Buses.step tracing.enabled) {} watched }

theorem quietDeletion_frees :
    (handleDeleteSandbox warnOnly {} "beta" (watchedState warnOnly)).2.buses.Free "sb" := by
  have found : getSandboxByName betaState.objects "beta" = some beta := rfl
  have answered : (handleDeleteSandbox warnOnly {} "beta" (watchedState warnOnly)).1 = .ok true := rfl
  exact (deletion_frees_buses_iff watched found (Prod.ext answered rfl)).mpr rfl

/-- At the default log level the log bus holds the handler's own last line. -/
theorem deletion_leaves_entry : ¬∀ (tracing : Tracing) (outside : DeleteOutside) (state after : ServerState)
    (prior : List Buses.Event) (name : String) (sandbox : Sandbox) (deleted : Bool),
    getSandboxByName state.objects name = some sandbox →
    handleDeleteSandbox tracing outside name
      { state with buses := Machine.run (Buses.step tracing.enabled) state.buses prior } = (.ok deleted, after) →
    after.buses.Free sandbox.id := by
  intro frees
  have found : getSandboxByName betaState.objects "beta" = some beta := rfl
  have answered : (handleDeleteSandbox infoLevel {} "beta" (watchedState infoLevel)).1 = .ok true := rfl
  have free := frees infoLevel {} betaState _ watched "beta" beta true found (Prod.ext answered rfl)
  have present : getSandboxByName (watchedState infoLevel).objects "beta" = some beta := rfl
  cases (free_of_deleted present (Prod.ext answered rfl)).mp free

end OpenShell.Server.Gateway
