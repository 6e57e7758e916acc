import OpenShell.Lib.Tags
import OpenShell.Sandbox.LogPush
import OpenShell.Server.LogWatch
import OpenShell.Server.PolicyWrites

namespace OpenShell.Server

open OpenShell.Sandbox.LogPush Tags

/-! The log lines of a sandbox at the gateway: what `handle_push_sandbox_logs` publishes of each call, over every
interleaving of the sandbox's loop with the handlers of its calls, and what `handle_get_sandbox_logs` shows. -/

deriving instance DecidableEq for SandboxLogLine

/-- The handler of one call, between two of its messages. -/
structure PushStream where
  validated : Bool := false
  status : Option Status := none

/-- How many lines of one batch are published. -/
def maxPublished : Nat := 100

/-- `publish_external` gets each of these. -/
def publishedLogs (batch : PushSandboxLogsRequest) : List SandboxLogLine :=
  (batch.logs.take maxPublished).map fun log => { log with source := "sandbox", sandboxId := batch.sandboxId }

/-- One message of the call. `lookup` is what `get_message` answers if the handler asks for the sandbox. -/
def PushStream.handle (stream : PushStream) (lookup : Except String Bool) (batch : PushSandboxLogsRequest) :
    PushStream × List SandboxLogLine :=
  if batch.sandboxId = "" then (stream, [])
  else if stream.validated then (stream, publishedLogs batch)
  else
    match lookup with
    | .ok true => ({ stream with validated := true }, publishedLogs batch)
    | .ok false => ({ stream with status := some ⟨.notFound, "sandbox not found"⟩ }, [])
    | .error problem => ({ stream with status := some ⟨.internal, "fetch sandbox failed: " ++ problem⟩ }, [])

/-- A sandbox, its calls and the gateway. `read` counts the messages of a call that its handler has read, and `logged`
is all that was published on the log bus, by the handlers of these calls and by others. -/
structure LogPipeline where
  loop : PushLoop := {}
  read : Nat → Nat := fun _ => 0
  streams : Nat → PushStream := fun _ => {}
  published : List (Nat × SandboxLogLine) := []
  logged : List SandboxLogLine := []
  buses : Buses := {}

/-- A step in the sandbox, a message of a call that arrives, or something else that reaches the buses: the gateway's own
tracing events and the lines that other callers push. A call's messages arrive in the order in which they were sent, and
not all of them need to. -/
inductive PipelineEvent where
  | sandbox (event : PushEvent)
  | arrive (call : Nat) (lookup : Except String Bool)
  | gateway (enabled : TracingEvent → Bool) (event : Buses.Event)

/-- The line that the layer of the gateway makes of a tracing event. -/
def TracingEvent.line (nowMs : Int) (event : TracingEvent) : Option SandboxLogLine :=
  event.visit.sandboxId.map fun sandboxId =>
    { sandboxId, timestampMs := nowMs, level := event.level, target := event.target,
      message := event.visit.message.getD event.name, source := "gateway" }

/-- The line that an event puts on the log bus. -/
def Buses.Event.line (enabled : TracingEvent → Bool) : Buses.Event → Option SandboxLogLine
  | .publishExternal log => some log
  | .trace nowMs event => if enabled event then event.line nowMs else none
  | .publishPlatform _ _ | .subscribeLog _ | .subscribePlatform _ | .subscribeWatch _ | .notify _ => none

namespace LogPipeline

def arrive (pipeline : LogPipeline) (call : Nat) (lookup : Except String Bool) : LogPipeline :=
  match (tagged call pipeline.loop.requests)[pipeline.read call]? with
  | none => pipeline
  | some batch =>
    if (pipeline.streams call).status.isSome then pipeline
    else
      let handled := (pipeline.streams call).handle lookup batch
      { pipeline with
        read := Function.update pipeline.read call (pipeline.read call + 1)
        streams := Function.update pipeline.streams call handled.1
        published := pipeline.published ++ handled.2.map (Prod.mk call)
        logged := pipeline.logged ++ handled.2
        buses := handled.2.foldl Buses.publishExternal pipeline.buses }

def step (layer : LogPushLayer) (pipeline : LogPipeline) : PipelineEvent → LogPipeline
  | .sandbox event => { pipeline with loop := Sandbox.LogPush.step layer pipeline.loop event }
  | .arrive call lookup => pipeline.arrive call lookup
  | .gateway enabled event => { pipeline with
      logged := pipeline.logged ++ (event.line enabled).toList
      buses := pipeline.buses.step enabled event }

end LogPipeline

def PipelineEvent.sandboxEvent : PipelineEvent → Option PushEvent
  | .sandbox event => some event
  | .arrive _ _ | .gateway _ _ => none

/-- The lines that others put on the log bus during a run. -/
def otherLogs (events : List PipelineEvent) : List SandboxLogLine :=
  events.flatMap fun
    | .gateway enabled event => (event.line enabled).toList
    | .sandbox _ | .arrive _ _ => []

/-- The lines that the layer made during a run. -/
def emittedLogs (layer : LogPushLayer) (events : List PipelineEvent) : List SandboxLogLine :=
  emitted layer (events.filterMap PipelineEvent.sandboxEvent)


section Layer

variable {layer : LogPushLayer}

theorem line_stamped {nowMs : Int} {event : LayerEvent} {line : SandboxLogLine}
    (made : layer.line nowMs event = some line) : line.source = "sandbox" ∧ line.sandboxId = layer.sandboxId := by
  unfold LogPushLayer.line at made
  split at made
  · cases made
  · split at made
    · obtain ⟨shorthand, _, rfl⟩ := Option.map_eq_some_iff.mp made
      exact ⟨rfl, rfl⟩
    · cases made
      exact ⟨rfl, rfl⟩

theorem emitted_stamped {events : List PushEvent} {line : SandboxLogLine} (member : line ∈ emitted layer events) :
    line.source = "sandbox" ∧ line.sandboxId = layer.sandboxId := by
  obtain ⟨event, _, made⟩ := List.mem_flatMap.mp member
  cases event with
  | emit nowMs event => exact line_stamped (Option.mem_toList.mp made)
  | _ => cases made

/-- The handler publishes a line as the layer made it. -/
theorem publishedLogs_stamped {batch : PushSandboxLogsRequest}
    (stamped : ∀ line ∈ batch.logs, line.source = "sandbox" ∧ line.sandboxId = batch.sandboxId) :
    publishedLogs batch = batch.logs.take maxPublished := by
  unfold publishedLogs
  rw [List.map_congr_left (g := id), List.map_id]
  intro line member
  obtain ⟨source, sandboxId⟩ := stamped line (List.mem_of_mem_take member)
  rw [← source, ← sandboxId]
  rfl

end Layer

namespace LogPipeline

variable {layer : LogPushLayer} {pipeline : LogPipeline}

theorem arrive_loop (call : Nat) (lookup : Except String Bool) :
    (pipeline.arrive call lookup).loop = pipeline.loop := by
  unfold arrive
  split
  · rfl
  · split <;> rfl

theorem loop_run (events : List PipelineEvent) :
    (Machine.run (step layer) pipeline events).loop =
      Machine.run (Sandbox.LogPush.step layer) pipeline.loop (events.filterMap PipelineEvent.sandboxEvent) := by
  induction events generalizing pipeline with
  | nil => rfl
  | cons event rest ih =>
    rw [Machine.run_cons, ih]
    cases event with
    | sandbox event => rfl
    | arrive call lookup =>
      rw [step, arrive_loop]
      rfl
    | gateway enabled event => rfl

/-- What holds of one call between two messages: the requests it was sent, how many of them were read, its handler and
what that has published. -/
structure CallAccounted (sandboxId : String) (requests : List PushSandboxLogsRequest) (read : Nat) (stream : PushStream)
    (logs : List SandboxLogLine) : Prop where
  within : read ≤ requests.length
  named : stream.validated = true → sandboxId ≠ ""
  waiting : stream.validated = false → stream.status = none → sandboxId ≠ "" → read = 0
  refused : stream.validated = false → logs = []
  exact : stream.validated = true → logs = (requests.take read).flatMap publishedLogs

def Accounted (layer : LogPushLayer) (pipeline : LogPipeline) : Prop :=
  ∀ call, CallAccounted layer.sandboxId (tagged call pipeline.loop.requests) (pipeline.read call)
    (pipeline.streams call) (tagged call pipeline.published)

/-- The three outcomes of a message. -/
theorem handle_cases (stream : PushStream) (lookup : Except String Bool) (batch : PushSandboxLogsRequest) :
    batch.sandboxId = "" ∧ stream.handle lookup batch = (stream, []) ∨
      batch.sandboxId ≠ "" ∧ stream.handle lookup batch = ({ stream with validated := true }, publishedLogs batch) ∨
      batch.sandboxId ≠ "" ∧ stream.validated = false ∧
        ∃ status, stream.handle lookup batch = ({ stream with status := some status }, []) := by
  unfold PushStream.handle
  by_cases empty : batch.sandboxId = ""
  · exact .inl ⟨empty, if_pos empty⟩
  · simp only [if_neg empty]
    cases validated : stream.validated with
    | true => exact .inr (.inl ⟨empty, by rw [if_pos rfl, ← validated]⟩)
    | false =>
      rw [if_neg (by decide)]
      match lookup with
      | .ok true => exact .inr (.inl ⟨empty, rfl⟩)
      | .ok false => exact .inr (.inr ⟨empty, rfl, _, rfl⟩)
      | .error problem => exact .inr (.inr ⟨empty, rfl, _, rfl⟩)

theorem CallAccounted.sent {sandboxId : String} {requests more : List PushSandboxLogsRequest} {read : Nat}
    {stream : PushStream} {logs : List SandboxLogLine} (accounted : CallAccounted sandboxId requests read stream logs) :
    CallAccounted sandboxId (requests ++ more) read stream logs :=
  { accounted with
    within := by
      rw [List.length_append]
      exact Nat.le_add_right_of_le accounted.within
    exact := by
      intro validated
      rw [List.take_append_of_le_length accounted.within]
      exact accounted.exact validated }

/-- A message is read. -/
theorem CallAccounted.handled {sandboxId : String} {requests : List PushSandboxLogsRequest} {read : Nat}
    {stream : PushStream} {logs : List SandboxLogLine} (accounted : CallAccounted sandboxId requests read stream logs)
    {batch : PushSandboxLogsRequest} (next : requests[read]? = some batch) (own : batch.sandboxId = sandboxId)
    (idle : stream.status = none) (lookup : Except String Bool) :
    CallAccounted sandboxId requests (read + 1) (stream.handle lookup batch).1
      (logs ++ (stream.handle lookup batch).2) := by
  obtain ⟨more, found⟩ := List.getElem?_eq_some_iff.mp next
  rcases handle_cases stream lookup batch with ⟨empty, handled⟩ | ⟨present, handled⟩ | ⟨present, fresh, status, handled⟩
  · have nameless : sandboxId = "" := own.symm.trans empty
    have fresh : stream.validated = false := by
      by_contra validated
      exact accounted.named (by simpa using validated) nameless
    rw [handled, List.append_nil]
    exact ⟨more, accounted.named, fun _ _ present => absurd nameless present, accounted.refused,
      fun validated => absurd (fresh.symm.trans validated) Bool.false_ne_true⟩
  · rw [handled]
    refine ⟨more, fun _ => own ▸ present, fun fresh => (by cases fresh), fun fresh => (by cases fresh), ?_⟩
    intro _
    rw [List.take_succ_eq_append_getElem more, found, List.flatMap_append, List.flatMap_singleton]
    congr 1
    cases validated : stream.validated with
    | true => exact accounted.exact validated
    | false =>
      rw [accounted.refused validated, accounted.waiting validated idle (own ▸ present)]
      rfl
  · rw [handled, List.append_nil]
    exact ⟨more, accounted.named, fun _ running => (by cases running), accounted.refused,
      fun validated => absurd (fresh.symm.trans validated) Bool.false_ne_true⟩

theorem Accounted.sandbox (accounted : pipeline.Accounted layer) {loop : PushLoop}
    (grown : pipeline.loop.requests <+: loop.requests) : Accounted layer { pipeline with loop } := by
  obtain ⟨more, whole⟩ := grown
  intro call
  show CallAccounted _ (tagged call loop.requests) _ _ _
  rw [← whole, tagged_append]
  exact (accounted call).sent

theorem Accounted.arrive (accounted : pipeline.Accounted layer)
    (own : ∀ request ∈ pipeline.loop.requests, request.2.sandboxId = layer.sandboxId) (call : Nat)
    (lookup : Except String Bool) : (pipeline.arrive call lookup).Accounted layer := by
  unfold LogPipeline.arrive
  split
  · exact accounted
  · rename_i batch next
    split
    · exact accounted
    · rename_i running
      intro other
      by_cases here : other = call
      · subst here
        have member := mem_of_mem_tagged (List.mem_of_getElem? next)
        simp only [Function.update_self, tagged_append, tagged_map_tag, if_pos]
        exact (accounted other).handled next (own _ member) (by simpa using running) lookup
      · simp only [Function.update_of_ne here, tagged_append, tagged_map_tag, if_neg (Ne.symm here), List.append_nil]
        exact accounted other

theorem accounted_run (events : List PipelineEvent) : (Machine.run (step layer) {} events).Accounted layer := by
  refine (Machine.run_invariant
    (fun pipeline : LogPipeline => pipeline.loop.Steady layer.sandboxId ∧ pipeline.Accounted layer) ?_ ⟨?_, ?_⟩).2
  · intro pipeline event _ ⟨steady, accounted⟩
    cases event with
    | sandbox event => exact ⟨steady.step event, accounted.sandbox (requests_step event)⟩
    | arrive call lookup =>
      refine ⟨?_, accounted.arrive (fun request member => (steady.sizes request member).1) call lookup⟩
      rw [step, arrive_loop]
      exact steady
    | gateway enabled event => exact ⟨steady, accounted⟩
  · exact PushLoop.Steady.run []
  · intro call
    exact ⟨Nat.zero_le _, nofun, fun _ _ _ => rfl, fun _ => rfl, nofun⟩


section Runs

variable (layer : LogPushLayer) (events : List PipelineEvent)

theorem requests_sent (call : Nat) :
    ((tagged call (Machine.run (step layer) {} events).loop.requests).flatMap PushSandboxLogsRequest.logs).Sublist
      (emittedLogs layer events) := by
  rw [loop_run]
  refine List.Sublist.trans ?_ (kept_sublist_emitted layer (events.filterMap PipelineEvent.sandboxEvent))
  rw [PushLoop.kept, List.append_assoc]
  refine List.Sublist.trans ?_ (List.sublist_append_left _ _)
  refine ((@tagged_sublist Nat _ _ call _).flatMap PushSandboxLogsRequest.logs).trans ?_
  rw [List.flatMap_map]
  exact List.Sublist.refl _

theorem request_stamped {call : Nat} {batch : PushSandboxLogsRequest}
    (sent : batch ∈ tagged call (Machine.run (step layer) {} events).loop.requests) :
    publishedLogs batch = batch.logs.take maxPublished := by
  refine publishedLogs_stamped ?_
  intro line member
  have stamped := emitted_stamped ((requests_sent layer events call).mem (List.mem_flatMap.mpr ⟨batch, sent, member⟩))
  refine ⟨stamped.1, stamped.2.trans ?_⟩
  have own := mem_of_mem_tagged sent
  rw [loop_run] at own
  exact ((PushLoop.Steady.run _).sizes _ own).1.symm

theorem small_later (call : Nat) :
    (tagged call (Machine.run (step layer) {} events).loop.requests).Pairwise fun _ later =>
      later.logs.length ≤ batchSize := by
  rw [loop_run]
  exact pairwise_tagged ((PushLoop.Steady.run _).later.imp And.right)

/-- What is published of a call is what its handler has read, less what goes beyond a hundred lines. -/
theorem published_read (call : Nat) :
    let pipeline := Machine.run (step layer) {} events
    tagged call pipeline.published = if (pipeline.streams call).validated then
      ((tagged call pipeline.loop.requests).take (pipeline.read call)).flatMap fun batch => batch.logs.take maxPublished
    else [] := by
  intro pipeline
  have accounted := @accounted_run layer events call
  split
  · rename_i validated
    rw [accounted.exact validated]
    refine List.flatMap_congr ?_
    intro batch member
    exact request_stamped layer events (List.mem_of_mem_take member)
  · rename_i fresh
    exact accounted.refused (by simpa using fresh)

/-- Only the first request of a call can be cut, and it loses what goes beyond a hundred lines. -/
theorem published_of_call (call : Nat) :
    let pipeline : LogPipeline := Machine.run (step layer) {} events
    tagged call pipeline.published =
      if (pipeline.streams call).validated then
        match (tagged call pipeline.loop.requests).take (pipeline.read call) with
        | [] => []
        | first :: rest => first.logs.take maxPublished ++ rest.flatMap PushSandboxLogsRequest.logs
      else [] := by
  intro pipeline
  rw [published_read layer events call]
  split
  · split
    · rename_i none
      rw [none]
      rfl
    · rename_i first rest read
      rw [read, List.flatMap_cons]
      congr 1
      refine List.flatMap_congr ?_
      intro batch member
      refine List.take_of_length_le (Nat.le_trans ?_ (show batchSize ≤ maxPublished by decide))
      have later := (small_later layer events call).sublist (List.take_sublist (pipeline.read call) _)
      rw [read] at later
      exact (List.pairwise_cons.mp later).1 batch member
  · rfl

/-- No line is published more often than the layer made it, and each call's lines are published in the order in which
they were made. -/
theorem published_at_most_once :
    let pipeline : LogPipeline := Machine.run (step layer) {} events
    (pipeline.published.map Prod.snd).Subperm (emittedLogs layer events) ∧
      ∀ call, (tagged call pipeline.published).Sublist (emittedLogs layer events) := by
  intro pipeline
  have each : ∀ call, (tagged call pipeline.published).Sublist
      ((tagged call pipeline.loop.requests).flatMap PushSandboxLogsRequest.logs) := by
    intro call
    rw [published_read layer events call]
    split
    · refine List.Sublist.trans (List.Sublist.flatMap_right _ fun batch _ => List.take_sublist _ _) ?_
      exact (List.take_sublist _ _).flatMap _
    · exact List.nil_sublist _
  refine ⟨?_, fun call => (each call).trans (requests_sent layer events call)⟩
  have whole : pipeline.published.Subperm
      (pipeline.loop.requests.flatMap fun request => request.2.logs.map (Prod.mk request.1)) := by
    refine subperm_of_tagged fun call => ?_
    rw [tagged_flatMap]
    exact (each call).subperm
  obtain ⟨lines, perm, within⟩ := whole
  have published : (pipeline.published.map Prod.snd).Subperm pipeline.loop.sent := by
    refine ⟨lines.map Prod.snd, perm.map _, ?_⟩
    have mapped := within.map Prod.snd
    simpa only [List.map_flatMap, List.map_map, Function.comp_def, List.map_id', PushLoop.sent] using mapped
  have sent := (kept_sublist_emitted layer (events.filterMap PipelineEvent.sandboxEvent)).subperm
  rw [← @loop_run layer {}] at sent
  rw [PushLoop.kept, List.append_assoc] at sent
  exact published.trans ((List.sublist_append_left _ _).subperm.trans sent)

end Runs

end LogPipeline

/-! What the gateway shows of a sandbox's log. -/

/-- `TracingLogBus::tail`. -/
def EventBus.tail {ε : Type} (bus : EventBus ε) (sandboxId : String) (max : Nat) : List ε :=
  (((bus.tails.lookup sandboxId).getD []).reverse.take max).reverse

structure GetSandboxLogsRequest where
  sandboxId : String
  lines : Nat := 0
  sinceMs : Int := 0
  sources : List String := []
  minLevel : String := ""

def GetSandboxLogsRequest.shows (toUppercase : String → String) (request : GetSandboxLogsRequest)
    (log : SandboxLogLine) : Bool :=
  !(0 < request.sinceMs && log.timestampMs < request.sinceMs) &&
    (request.sources.isEmpty || LogWatch.sourceMatches log.source request.sources) &&
    LogWatch.levelMatches toUppercase log.level request.minLevel

/-- The lines of the answer and its `buffer_total`. -/
def handleGetSandboxLogs (toUppercase : String → String) (buses : Buses) (request : GetSandboxLogsRequest) :
    Except Status (List SandboxLogLine × Nat) :=
  if request.sandboxId = "" then .error ⟨.invalidArgument, "sandbox_id is required"⟩
  else
    let tail := buses.tracingLog.tail request.sandboxId (if request.lines = 0 then 2000 else request.lines)
    .ok (tail.filter (request.shows toUppercase), tail.length)

section Tail

variable {α : Type}

theorem rtake_rtake (first second : Nat) (items : List α) :
    (items.rtake first).rtake second = items.rtake (min second first) := by
  simp only [List.rtake_eq_reverse_take_reverse, List.reverse_reverse, List.take_take]

/-- Of what stands in front, only its own last items can be among the last. -/
theorem rtake_append_rtake (count : Nat) (before after : List α) :
    (before.rtake count ++ after).rtake count = (before ++ after).rtake count := by
  simp only [List.rtake_eq_reverse_take_reverse, List.reverse_append, List.reverse_reverse, List.take_append,
    List.take_take]
  rw [Nat.min_eq_left (Nat.sub_le _ _)]

def EventBus.heldTail (bus : EventBus α) (sandboxId : String) : List α := (bus.tails.lookup sandboxId).getD []

theorem EventBus.tail_eq (bus : EventBus α) (sandboxId : String) (max : Nat) :
    bus.tail sandboxId max = (bus.heldTail sandboxId).rtake max :=
  (List.rtake_eq_reverse_take_reverse _ _).symm

theorem EventBus.heldTail_publish (bus : EventBus α) (published sandboxId : String) (event : α) (tailCap : Nat) :
    (bus.publish published event tailCap).heldTail sandboxId =
      if published = sandboxId then (bus.heldTail sandboxId ++ [event]).rtake tailCap else bus.heldTail sandboxId := by
  unfold EventBus.heldTail EventBus.publish
  split
  · rename_i same
    subst same
    rw [AList.lookup_insert]
    rfl
  · rename_i differs
    rw [AList.lookup_insert_ne (Ne.symm differs)]

theorem heldTail_foldl {buses : Buses} {sandboxId : String} {before : List SandboxLogLine}
    (held : buses.tracingLog.heldTail sandboxId = before.rtake TracingLogBus.defaultTail) (logs : List SandboxLogLine) :
    (logs.foldl Buses.publishExternal buses).tracingLog.heldTail sandboxId =
      (before ++ logs.filter fun log => log.sandboxId = sandboxId).rtake TracingLogBus.defaultTail := by
  induction logs generalizing buses before with
  | nil => simpa using held
  | cons log rest ih =>
    have next := EventBus.heldTail_publish buses.tracingLog log.sandboxId sandboxId log TracingLogBus.defaultTail
    rw [held, rtake_append_rtake] at next
    rw [List.foldl_cons, List.filter_cons]
    by_cases same : log.sandboxId = sandboxId
    · rw [if_pos same] at next
      rw [if_pos (by simpa using same), ih next, List.append_assoc, List.singleton_append]
    · rw [if_neg same] at next
      rw [if_neg (by simpa using same), ih next]

theorem onEvent_eq (nowMs : Int) (bus : EventBus SandboxLogLine) (event : TracingEvent) :
    onEvent nowMs bus event =
      (event.line nowMs).elim bus fun line => bus.publish line.sandboxId line TracingLogBus.defaultTail := by
  unfold onEvent TracingEvent.line
  cases event.visit.sandboxId with
  | none => rfl
  | some sandboxId => rfl

/-- Of the other steps at the gateway, those that log a line publish it, and the rest leave the log bus as it is. -/
theorem heldTail_step {buses : Buses} {sandboxId : String} {before : List SandboxLogLine}
    (held : buses.tracingLog.heldTail sandboxId = before.rtake TracingLogBus.defaultTail)
    (enabled : TracingEvent → Bool) (event : Buses.Event) :
    (buses.step enabled event).tracingLog.heldTail sandboxId =
      (before ++ (event.line enabled).toList.filter fun log => log.sandboxId = sandboxId).rtake
        TracingLogBus.defaultTail := by
  cases event with
  | publishExternal log => exact heldTail_foldl held [log]
  | trace nowMs event =>
    rw [Buses.step, Buses.trace, Buses.Event.line]
    split
    · rw [onEvent_eq]
      cases event.line nowMs with
      | none => simpa using held
      | some line => exact heldTail_foldl held [line]
    · simpa using held
  | subscribeLog subscribed => simpa [Buses.step, EventBus.subscribe, EventBus.heldTail, Buses.Event.line] using held
  | publishPlatform _ _ | subscribePlatform _ | subscribeWatch _ | notify _ =>
    simpa [Buses.step, Buses.publishPlatform, Buses.subscribeWatch, Buses.notify, Buses.Event.line] using held

end Tail

namespace LogPipeline

variable (layer : LogPushLayer) (events : List PipelineEvent)

/-- The tail of every sandbox holds the last lines that were logged for it. -/
def TailsLogged (pipeline : LogPipeline) : Prop :=
  ∀ sandboxId, pipeline.buses.tracingLog.heldTail sandboxId =
    (pipeline.logged.filter fun log => log.sandboxId = sandboxId).rtake TracingLogBus.defaultTail

theorem tailsLogged_run : (Machine.run (step layer) {} events).TailsLogged := by
  refine Machine.run_invariant TailsLogged ?_ fun _ => List.rtake_nil _ |>.symm
  intro pipeline event _ held
  cases event with
  | sandbox event => exact held
  | arrive call lookup =>
    show (pipeline.arrive call lookup).TailsLogged
    unfold arrive
    split
    · exact held
    · split
      · exact held
      · intro sandboxId
        rw [heldTail_foldl (held sandboxId), List.filter_append]
  | gateway enabled event =>
    intro sandboxId
    rw [step, heldTail_step (held sandboxId), List.filter_append]

/-- What is on the log bus are the lines of the pipeline and those of the others, each in their order. -/
structure Merged (pipeline : LogPipeline) (others : List SandboxLogLine) : Prop where
  whole : pipeline.logged.Perm (pipeline.published.map Prod.snd ++ others)
  published : (pipeline.published.map Prod.snd).Sublist pipeline.logged
  others : others.Sublist pipeline.logged

theorem merged_run : (Machine.run (step layer) {} events).Merged (otherLogs events) := by
  induction events using List.reverseRecOn with
  | nil => exact ⟨.refl _, .refl _, .refl _⟩
  | append_singleton events event ih =>
    rw [Machine.run_append, otherLogs, List.flatMap_append, List.flatMap_singleton]
    obtain ⟨whole, published, others⟩ := ih
    cases event with
    | sandbox event =>
      rw [List.append_nil]
      exact ⟨whole, published, others⟩
    | arrive call lookup =>
      rw [List.append_nil]
      show (LogPipeline.arrive _ call lookup).Merged _
      unfold arrive
      split
      · exact ⟨whole, published, others⟩
      · split
        · exact ⟨whole, published, others⟩
        · have own : ∀ lines : List SandboxLogLine, (lines.map (Prod.mk call)).map Prod.snd = lines := by
            intro lines
            rw [List.map_map]
            exact List.map_id _
          refine ⟨?_, ?_, ?_⟩
          · rw [List.map_append, own, List.append_assoc]
            refine (whole.append_right _).trans ?_
            rw [List.append_assoc]
            exact List.perm_append_comm.append_left _
          · rw [List.map_append, own]
            exact published.append (.refl _)
          · exact others.trans (List.sublist_append_left _ _)
    | gateway enabled event =>
      refine ⟨?_, published.trans (List.sublist_append_left _ _), others.append (.refl _)⟩
      show List.Perm (_ ++ _) (_ ++ (_ ++ _))
      rw [← List.append_assoc]
      exact whole.append_right _

theorem published_stamped {log : SandboxLogLine}
    (member : log ∈ (Machine.run (step layer) {} events).published.map Prod.snd) : log.sandboxId = layer.sandboxId := by
  obtain ⟨⟨call, line⟩, inside, rfl⟩ := List.mem_map.mp member
  have published : line ∈ tagged call (Machine.run (step layer) {} events).published :=
    List.mem_map.mpr ⟨_, List.mem_filter.mpr ⟨inside, decide_eq_true rfl⟩, rfl⟩
  rw [published_read layer events call] at published
  split at published
  · obtain ⟨batch, read, taken⟩ := List.mem_flatMap.mp published
    have sent := (requests_sent layer events call).mem
      (List.mem_flatMap.mpr ⟨batch, List.mem_of_mem_take read, List.mem_of_mem_take taken⟩)
    exact (emitted_stamped sent).2
  · cases published

/-- Asked for the log of the sandbox, the gateway shows the last lines that were logged of it: those that the pipeline
has published, among those of the other publishers. -/
theorem shown_logs (toUppercase : String → String) (request : GetSandboxLogsRequest) :
    let pipeline := Machine.run (step layer) {} events
    let own := pipeline.logged.filter fun log => log.sandboxId = layer.sandboxId
    let shown := own.rtake (min (if request.lines = 0 then 2000 else request.lines) 2000)
    pipeline.Merged (otherLogs events) ∧
      (∀ log ∈ pipeline.published.map Prod.snd, log.sandboxId = layer.sandboxId) ∧
      handleGetSandboxLogs toUppercase pipeline.buses { request with sandboxId := layer.sandboxId } =
        if layer.sandboxId = "" then .error ⟨.invalidArgument, "sandbox_id is required"⟩
        else .ok (shown.filter (request.shows toUppercase), shown.length) := by
  intro pipeline own shown
  refine ⟨merged_run layer events, fun log => published_stamped layer events, ?_⟩
  unfold handleGetSandboxLogs
  split
  · rfl
  · have held := tailsLogged_run layer events layer.sandboxId
    simp only [EventBus.tail_eq]
    rw [held, rtake_rtake]
    rfl

end LogPipeline

end OpenShell.Server
