import OpenShell.Server.WriterSafety

namespace OpenShell.Server

open OpenShell.Policy Effects Effects.Fallible

variable {Blob α β : Type} {wire : Wire Blob} {lower : String → String} {sandboxId : String}

abbrev Trace (Blob : Type) : Type := List (Event (storeInterface Blob))

def EndsCall (program : Handler Blob α) (holds : Trace Blob → Except Status α → Prop) : Prop :=
  Program.Ends program holds

/-- A call that succeeds has written one revision, a call that fails has written none. -/
def WroteOnce (trace : Trace Blob) (result : Except Status α) : Prop :=
  trace.countP wrote = if result.isOk then 1 else 0

theorem EndsCall.mono {program : Handler Blob α} {weaker stronger : Trace Blob → Except Status α → Prop}
    (ends : EndsCall program stronger)
    (implies : ∀ trace result, stronger trace result → weaker trace result) : EndsCall program weaker :=
  Program.Ends.mono ends implies

theorem EndsCall.ask {op : StoreOp Blob} {next : op.Answer → Handler Blob α}
    {holds : Trace Blob → Except Status α → Prop}
    (rest : ∀ answer, EndsCall (next answer) (fun later result => holds (⟨op, answer⟩ :: later) result)) :
    EndsCall (Server.ask op >>= next) holds := rest

theorem EndsCall.putRevision {version : Nat} {policy : SandboxPolicy}
    {next : Option (Nat × String) → Handler Blob α} {holds : Trace Blob → Except Status α → Prop}
    (written : ∀ trace : Trace Blob, trace.countP wrote = 1 →
      EndsCall (next (some (version, deterministicPolicyHash wire policy)))
        (fun later result => holds (trace ++ later) result))
    (conflict : ∀ trace : Trace Blob, trace.countP wrote = 0 →
      EndsCall (next none) (fun later result => holds (trace ++ later) result))
    (failed : ∀ (trace : Trace Blob) status, trace.countP wrote = 0 → holds trace (.error status)) :
    EndsCall (Server.putRevision wire sandboxId version policy >>= next) holds := by
  unfold Server.putRevision
  rw [bind_assoc]
  apply EndsCall.ask
  intro answer
  cases answer with
  | ok _ =>
    rw [bind_assoc]
    apply EndsCall.ask
    intro superseded
    exact written [_, _] rfl
  | error text =>
    have unwritten : List.countP wrote [(⟨.putPolicyRevision sandboxId version (wire.encodePolicy policy)
        (deterministicPolicyHash wire policy), (Except.error text : Except String Unit)⟩ :
          Event (storeInterface Blob))] = 0 := rfl
    by_cases retried : isConflict text
    · simp only [retried, if_true]
      exact conflict _ unwritten
    · simp only [retried]
      exact failed _ _ unwritten

theorem EndsCall.attempt {retry : Handler Blob (Nat × String)} (retried : EndsCall retry WroteOnce)
    (read : Trace Blob) (none_before : read.countP wrote = 0) {version : Nat} {policy : SandboxPolicy} :
    EndsCall (Server.putRevision wire sandboxId version policy >>= fun written =>
        match written with
        | some revision => pure revision
        | none => retry)
      (fun later result => WroteOnce (read ++ later) result) := by
  apply EndsCall.putRevision
  · intro trace once
    simp only [EndsCall, pure, Program.Ends, WroteOnce, List.countP_append, none_before, once]
    rfl
  · intro trace none_yet
    apply retried.mono
    intro later result counted
    simp only [WroteOnce, List.countP_append, none_before, none_yet] at counted ⊢
    omega
  · intro trace status none_written
    simp only [WroteOnce, List.countP_append, none_before, none_written]
    rfl

theorem ends_mergeAttempts {chunk : DraftChunkRecord Blob} {rule : NetworkPolicyRule} (attempts : Nat) :
    EndsCall (mergeAttempts wire lower sandboxId chunk rule attempts) WroteOnce := by
  induction attempts with
  | zero => rfl
  | succ attempts ih =>
    unfold mergeAttempts
    apply EndsCall.ask
    intro answer
    cases answer with
    | error text => rfl
    | ok latest =>
      rw [orInternal_ok_bind]
      cases latest with
      | none => exact EndsCall.attempt ih [_] rfl
      | some record =>
        cases decoded : wire.decodePolicy record.policyPayload with
        | error text =>
          rw [mergeBase_broken wire decoded]
          rfl
        | ok policy =>
          rw [mergeBase_decoded wire decoded]
          exact EndsCall.attempt ih [_] rfl

theorem ends_removeAttempts {chunk : DraftChunkRecord Blob} (attempts : Nat) :
    EndsCall (removeAttempts wire sandboxId chunk attempts) WroteOnce := by
  induction attempts with
  | zero => rfl
  | succ attempts ih =>
    unfold removeAttempts
    apply EndsCall.ask
    intro answer
    cases answer with
    | error text => rfl
    | ok latest =>
      rw [orInternal_ok_bind]
      cases latest with
      | none => rfl
      | some record =>
        rw [orElse_some_bind]
        cases decoded : wire.decodePolicy record.policyPayload with
        | error text => rfl
        | ok policy =>
          rw [orInternal_ok_bind]
          exact EndsCall.attempt ih [_] rfl

def InsertedOnce (trace : Trace Blob) (result : Except Status α) : Prop :=
  result.isOk = true → (∃ event ∈ trace, StoreOp.inserts event.op = true) → trace.countP wrote = 1

theorem wrote_inserts {event : Event (storeInterface Blob)} (written : wrote event = true) :
    StoreOp.inserts event.op = true := by
  obtain ⟨op, answer⟩ := event
  cases op with
  | putPolicyRevision _ _ _ _ => rfl
  | _ => cases written

theorem insertedOnce_prepend {read later : Trace Blob} {result : Except Status α}
    (silent : ∀ event ∈ read, StoreOp.inserts event.op = false) (once : InsertedOnce later result) :
    InsertedOnce (read ++ later) result := by
  intro succeeded ⟨event, member, inserts⟩
  have none_read : read.countP wrote = 0 := by
    apply List.countP_eq_zero.mpr
    intro asked askedIn written
    have contradiction := wrote_inserts written
    rw [silent asked askedIn] at contradiction
    cases contradiction
  rw [List.countP_append, none_read, Nat.zero_add]
  apply once succeeded
  rcases List.mem_append.mp member with early | late
  · rw [silent event early] at inserts
    cases inserts
  · exact ⟨event, late, inserts⟩

theorem EndsCall.after {first : Handler Blob α} {next : α → Handler Blob β} (sends : Silent first)
    (rest : ∀ value, EndsCall (next value) InsertedOnce) : EndsCall (first >>= next) InsertedOnce := by
  apply Program.Ends.bind
  apply Program.Ends.mono (Program.Requests.ends sends.requests)
  intro read result silent
  cases result with
  | ok value =>
    apply (rest value).mono
    intro later outcome once
    exact insertedOnce_prepend silent once
  | error status =>
    intro succeeded
    cases succeeded

theorem EndsCall.silent {program : Handler Blob α} (sends : Silent program) :
    EndsCall program InsertedOnce := by
  apply Program.Ends.mono (Program.Requests.ends sends.requests)
  intro trace result silent _ ⟨event, member, inserts⟩
  rw [silent event member] at inserts
  cases inserts

theorem ends_writeUpdate (policy : SandboxPolicy) :
    EndsCall (writeUpdate wire sandboxId policy) InsertedOnce := by
  unfold writeUpdate
  apply EndsCall.after (Sends.ask rfl)
  intro answer
  apply EndsCall.after (Sends.orInternal _ _)
  intro latest
  simp only
  split
  · exact EndsCall.silent (Sends.pure _)
  · unfold persistRevision
    rw [bind_assoc]
    apply EndsCall.ask
    intro inserted
    cases inserted with
    | error text =>
      intro succeeded
      cases succeeded
    | ok _ =>
      intro superseded _ _
      rfl

theorem EndsCall.finish {program : Handler Blob α} (holds : Trace Blob → Bool → Prop)
    (ends : EndsCall program fun trace result => holds trace result.isOk) :
    EndsCall (program >>= fun _ => (pure () : Handler Blob Unit))
      (fun trace result => holds trace result.isOk) := by
  apply Program.Ends.bind
  apply Program.Ends.mono ends
  intro trace result held
  cases result with
  | ok value =>
    show holds (trace ++ []) true
    rw [List.append_nil]
    exact held
  | error status =>
    show holds (trace ++ []) false
    rw [List.append_nil]
    exact held

/-- Whether the call went through its insert: a merge or a removal always does, an update when its
    policy differs from the newest one. -/
def WriterCall.TookInsertPath (trace : Trace Blob) : WriterCall Blob → Prop
  | .merge _ _ | .remove _ _ => True
  | .update _ _ => ∃ event ∈ trace, StoreOp.inserts event.op = true

theorem ends_body (call : WriterCall Blob) :
    EndsCall (call.body wire lower) fun trace result =>
      result.isOk = true → call.TookInsertPath trace → trace.countP wrote = 1 := by
  cases call with
  | merge sandboxId chunk =>
    apply EndsCall.finish fun trace ok => ok = true → True → trace.countP wrote = 1
    unfold mergeChunkIntoPolicy
    cases decoded : wire.decodeRule chunk.proposedRule with
    | error text =>
      intro succeeded
      cases succeeded
    | ok rule =>
      apply (ends_mergeAttempts mergeRetryLimit).mono
      intro trace result counted succeeded _
      simpa [WroteOnce, succeeded] using counted
  | remove sandboxId chunk =>
    apply EndsCall.finish fun trace ok => ok = true → True → trace.countP wrote = 1
    apply (ends_removeAttempts mergeRetryLimit).mono
    intro trace result counted succeeded _
    simpa [WroteOnce, succeeded] using counted
  | update request sandboxScoped =>
    apply EndsCall.finish fun trace ok => ok = true →
      (∃ event ∈ trace, StoreOp.inserts event.op = true) → trace.countP wrote = 1
    exact handleUpdateConfig_scoped (fun program => EndsCall program InsertedOnce) EndsCall.after
      EndsCall.silent (fun owner policy => ends_writeUpdate policy) sandboxScoped

/-- Any number of writers, interleaved statement by statement, with statements that may fail. -/
def WritersReach (wire : Wire Blob) (lower : String → String) (initial : Store Blob)
    (config : Config (storeInterface Blob) (Store Blob) (WriterCall Blob) (Except Status Unit)) : Prop :=
  Reachable (WriterCall.body wire lower) (fun op store => store.Performs op) (fun _ _ => True) initial config

/-- No update is lost: versions have no gaps, a call that succeeds through its insert has written one
    revision, and every revision of a merge or a removal was made from the one before it. -/
theorem writers_lose_nothing {initial : Store Blob} (contiguous : initial.Contiguous)
    {config : Config (storeInterface Blob) (Store Blob) (WriterCall Blob) (Except Status Unit)}
    (reached : WritersReach wire lower initial config) :
    config.state.Contiguous ∧
      (∀ thread ∈ config.threads, thread.program = .done (.ok ()) →
        thread.call.TookInsertPath thread.trace → thread.trace.countP wrote = 1) ∧
      ∀ thread ∈ config.threads, ∀ sandboxId version payload hash,
        inserted sandboxId version payload hash ∈ thread.trace →
        config.state.HasRevision sandboxId version payload ∧
          thread.call.Accounts wire lower sandboxId version payload config.state := by
  have stable : ∀ call event,
      (writerContract wire lower).Stable ((writerContract wire lower).records call event) := records_stable
  obtain ⟨holds, threads⟩ := Contract.kept_of_reachable stable safe_body contiguous reached
  refine ⟨holds, ?_, ?_⟩
  · intro thread member finished insertPath
    have ends := (threads thread member).onTrack _ (ends_body thread.call)
    rw [finished] at ends
    have counted := ends rfl
    rw [List.append_nil] at counted
    exact counted insertPath
  · intro thread member sandboxId version payload hash eventIn
    exact (threads thread member).recorded _ eventIn sandboxId version payload hash rfl

section Example

def raceRule (name binary : String) : NetworkPolicyRule :=
  { name := name, endpoints := [{ host := "a.example", port := 443 }], binaries := [{ path := binary }] }

def raceChunk (name binary : String) : DraftChunkRecord Message :=
  { id := name, sandboxId := "sb", status := .pending, ruleName := name,
    proposedRule := .rule (raceRule name binary), host := "a.example", port := 443, binary := binary }

def race : Config (storeInterface Message) (Store Message) (WriterCall Message) (Except Status Unit) :=
  Config.play (WriterCall.body plainWire String.toLower) Store.exec ⟨{}, []⟩
    [.start (.merge "sb" (raceChunk "r1" "/usr/bin/curl")),
      .start (.merge "sb" (raceChunk "r2" "/usr/bin/git")),
      .advance 0, .advance 1, .advance 0, .advance 1, .advance 0, .advance 1, .advance 1, .advance 1]

theorem contiguous_empty : ({} : Store Message).Contiguous := by
  intro sandboxId
  refine ⟨0, ?_⟩
  intro version
  constructor
  · intro ⟨payload, record, member, _⟩
    cases member
  · intro bound
    omega

theorem race_reached : WritersReach plainWire String.toLower {} race := by
  unfold WritersReach race
  apply reachable_play
  · exact fun op state => Or.inl rfl
  · exact Config.admitted_of_starts _ _ fun _ _ _ => True.intro

theorem race_loses_nothing :
    race.state.Contiguous ∧
      (∀ thread ∈ race.threads, thread.program = .done (.ok ()) →
        thread.call.TookInsertPath thread.trace → thread.trace.countP wrote = 1) ∧
      ∀ thread ∈ race.threads, ∀ sandboxId version payload hash,
        inserted sandboxId version payload hash ∈ thread.trace →
        race.state.HasRevision sandboxId version payload ∧
          thread.call.Accounts plainWire String.toLower sandboxId version payload race.state :=
  writers_lose_nothing contiguous_empty race_reached

example : race.state.policies.rows.map PolicyRecord.version = [1, 2] := by decide +kernel

end Example

end OpenShell.Server
