import OpenShell.Lib.Machine
import OpenShell.Server.Buses

namespace OpenShell.Sandbox.LogPush

open OpenShell.Policy OpenShell.Server

/-! The way of a log line out of the sandbox: the tracing layer that makes it, the channel to the background task, and
the task's loop, which batches lines and sends them over one call after another. -/

inductive Level where
  | error
  | warn
  | info
  | debug
  | trace
deriving DecidableEq

/-- In the order of `tracing`, the more verbose level is the greater one. -/
def Level.verbosity : Level → Nat
  | .error => 0
  | .warn => 1
  | .info => 2
  | .debug => 3
  | .trace => 4

def Level.text : Level → String
  | .error => "ERROR"
  | .warn => "WARN"
  | .info => "INFO"
  | .debug => "DEBUG"
  | .trace => "TRACE"

def ocsfTarget : String := "ocsf"

/-- An event as the layer gets it. `ocsf` is the short form of the current OCSF event of the thread. -/
structure LayerEvent where
  name : String
  level : Level
  target : String
  fields : List (String × String)
  ocsf : Option String

/-- `LogVisitor`: the last field called `message` is the message. -/
def LayerEvent.message (event : LayerEvent) : Option String :=
  (event.fields.reverse.find? fun field => field.1 == "message").map Prod.snd

/-- The other fields. Of several with one name the last one stays. -/
def LayerEvent.others (event : LayerEvent) : StringMap String :=
  event.fields.foldl (fun others field => if field.1 = "message" then others else others.insert field.1 field.2) ∅

structure LogPushLayer where
  sandboxId : String
  maxLevel : Level

/-- `LogPushLayer::on_event` up to the channel. -/
def LogPushLayer.line (layer : LogPushLayer) (nowMs : Int) (event : LayerEvent) : Option SandboxLogLine :=
  if layer.maxLevel.verbosity < event.level.verbosity then none
  else if event.target = ocsfTarget then
    event.ocsf.map fun shorthand =>
      { sandboxId := layer.sandboxId, timestampMs := nowMs, level := "OCSF", target := event.target,
        message := shorthand, source := "sandbox" }
  else some
    { sandboxId := layer.sandboxId, timestampMs := nowMs, level := event.level.text, target := event.target,
      message := event.message.getD event.name, source := "sandbox", fields := event.others }

structure PushSandboxLogsRequest where
  sandboxId : String
  logs : List SandboxLogLine

def channelCapacity : Nat := 1024

def batchSize : Nat := 50

def maxBuffered : Nat := 200

def initialBackoff : Nat := 1

def maxBackoff : Nat := 30

/-- Where `run_push_loop` is. `backingOff` is inside `drain_during_backoff`, `resuming` is where a new call is open and
what was buffered is about to be sent, `streaming` is the loop that batches and sends. -/
inductive Phase where
  | connecting
  | backingOff
  | resuming
  | streaming
  | exited
deriving DecidableEq

/-- The channel and the loop. A request stands beside the number of the call that took it. -/
structure PushLoop where
  channel : List SandboxLogLine := []
  closed : Bool := false
  batch : List SandboxLogLine := []
  backoff : Nat := initialBackoff
  phase : Phase := .connecting
  call : Nat := 0
  requests : List (Nat × PushSandboxLogsRequest) := []

/-- What happens to the loop: the layer gets an event, its sender is dropped, a connection is attempted, and then what
each `select!` may meet. `accepted` says whether the call takes a request that is sent. -/
inductive PushEvent where
  | emit (nowMs : Int) (event : LayerEvent)
  | close
  | connect (reached : Bool)
  | drain
  | deadline
  | resume (accepted : Bool)
  | receive (accepted : Bool)
  | tick (accepted : Bool)
  | rpcDone

namespace PushLoop

/-- `try_send`: a line that finds the channel full, or the receiver gone, is dropped. -/
def trySend (loop : PushLoop) (line : SandboxLogLine) : PushLoop :=
  if loop.closed || loop.phase == .exited || channelCapacity ≤ loop.channel.length then loop
  else { loop with channel := loop.channel ++ [line] }

def enter (phase : Phase) (loop : PushLoop) : PushLoop := { loop with phase }

/-- Back to the connection after a wait that ran out, or was cut short because the channel is closed. -/
def retry (loop : PushLoop) : PushLoop :=
  { loop with backoff := min (loop.backoff * 2) maxBackoff, phase := .connecting }

/-- The call is lost. -/
def reconnect (loop : PushLoop) : PushLoop := { loop with backoff := initialBackoff, phase := .connecting }

/-- `std::mem::take(&mut batch)`, sent over the current call. -/
def send (sandboxId : String) (accepted : Bool) (loop : PushLoop) : PushLoop :=
  { loop with
    batch := []
    requests :=
      if accepted then loop.requests ++ [(loop.call, { sandboxId, logs := loop.batch })] else loop.requests }

/-- A batch that is sent while the stream is up: a refusal ends the stream. -/
def flush (sandboxId : String) (accepted : Bool) (loop : PushLoop) : PushLoop :=
  if accepted then loop.send sandboxId true else (loop.send sandboxId false).reconnect

/-- A line is received and put into the batch. -/
def take (line : SandboxLogLine) (rest : List SandboxLogLine) (loop : PushLoop) : PushLoop :=
  { loop with channel := rest, batch := loop.batch ++ [line] }

def drain (loop : PushLoop) : PushLoop :=
  match loop.channel with
  | [] => if loop.closed then loop.retry else loop
  | line :: rest =>
    if loop.batch.length < maxBuffered then loop.take line rest else { loop with channel := rest }

def resume (sandboxId : String) (accepted : Bool) (loop : PushLoop) : PushLoop :=
  if loop.batch.isEmpty then loop.enter .streaming
  else if accepted then (loop.send sandboxId true).enter .streaming
  else (loop.send sandboxId false).reconnect

/-- The arm of `rx.recv()`. -/
def receive (sandboxId : String) (accepted : Bool) (loop : PushLoop) : PushLoop :=
  match loop.channel with
  | [] =>
    if loop.closed then
      if loop.batch.isEmpty then loop.enter .exited else (loop.send sandboxId accepted).enter .exited
    else loop
  | line :: rest =>
    if batchSize ≤ (loop.take line rest).batch.length then (loop.take line rest).flush sandboxId accepted
    else loop.take line rest

def tick (sandboxId : String) (accepted : Bool) (loop : PushLoop) : PushLoop :=
  if loop.batch.isEmpty then loop else loop.flush sandboxId accepted

end PushLoop

/-- One step of the layer or of `run_push_loop`. What its phase does not wait for does not happen to the loop. -/
def step (layer : LogPushLayer) (loop : PushLoop) : PushEvent → PushLoop
  | .emit nowMs event =>
    match layer.line nowMs event with
    | some line => loop.trySend line
    | none => loop
  | .close => { loop with closed := true }
  | .connect reached =>
    if loop.phase = .connecting then
      if reached then { loop with backoff := initialBackoff, phase := .resuming, call := loop.call + 1 }
      else loop.enter .backingOff
    else loop
  | .drain => if loop.phase = .backingOff then loop.drain else loop
  | .deadline => if loop.phase = .backingOff then loop.retry else loop
  | .resume accepted => if loop.phase = .resuming then loop.resume layer.sandboxId accepted else loop
  | .receive accepted => if loop.phase = .streaming then loop.receive layer.sandboxId accepted else loop
  | .tick accepted => if loop.phase = .streaming then loop.tick layer.sandboxId accepted else loop
  | .rpcDone => if loop.phase = .streaming then loop.reconnect else loop

/-- The lines that the layer makes of an event. -/
def PushEvent.lines (layer : LogPushLayer) : PushEvent → List SandboxLogLine
  | .emit nowMs event => (layer.line nowMs event).toList
  | _ => []

def emitted (layer : LogPushLayer) (events : List PushEvent) : List SandboxLogLine :=
  events.flatMap (PushEvent.lines layer)

def PushLoop.sent (loop : PushLoop) : List SandboxLogLine := loop.requests.flatMap fun request => request.2.logs

/-- The lines that have not been lost, in the order in which they leave. -/
def PushLoop.kept (loop : PushLoop) : List SandboxLogLine := loop.sent ++ loop.batch ++ loop.channel

/-! What may be lost. -/

/-- The step loses a line: it finds the channel full or closed, the buffer of a reconnection full, or the call refuses
the request. -/
def loses (layer : LogPushLayer) (loop : PushLoop) : PushEvent → Bool
  | .emit nowMs event =>
    (layer.line nowMs event).isSome &&
      (loop.closed || loop.phase == .exited || decide (channelCapacity ≤ loop.channel.length))
  | .drain => loop.phase == .backingOff && !loop.channel.isEmpty && decide (maxBuffered ≤ loop.batch.length)
  | .resume accepted => loop.phase == .resuming && !loop.batch.isEmpty && !accepted
  | .receive accepted =>
    loop.phase == .streaming && !accepted &&
      if loop.channel.isEmpty then loop.closed && !loop.batch.isEmpty
      else decide (batchSize ≤ loop.batch.length + 1)
  | .tick accepted => loop.phase == .streaming && !loop.batch.isEmpty && !accepted
  | _ => false

namespace PushLoop

variable {sandboxId : String} {loop : PushLoop}

theorem kept_enter (phase : Phase) : (loop.enter phase).kept = loop.kept := rfl

theorem kept_retry : loop.retry.kept = loop.kept := rfl

theorem kept_reconnect : loop.reconnect.kept = loop.kept := rfl

theorem kept_take {line : SandboxLogLine} {rest : List SandboxLogLine} (waiting : loop.channel = line :: rest) :
    (loop.take line rest).kept = loop.kept := by
  simp [take, kept, sent, waiting]

theorem kept_trySend (line : SandboxLogLine) :
    (loop.trySend line).kept =
      if loop.closed || loop.phase == .exited || channelCapacity ≤ loop.channel.length then loop.kept
      else loop.kept ++ [line] := by
  unfold trySend
  split
  · rfl
  · simp [kept, sent]

theorem kept_send_accepted : (loop.send sandboxId true).kept = loop.kept := by
  simp [send, kept, sent]

theorem kept_send_refused : (loop.send sandboxId false).kept = loop.sent ++ loop.channel := by
  simp [send, kept, sent]

theorem sent_channel_sublist : (loop.sent ++ loop.channel).Sublist loop.kept := by
  unfold kept
  rw [List.append_assoc]
  exact (List.sublist_append_right _ _).append_left _

theorem sent_channel_eq_kept_iff : loop.sent ++ loop.channel = loop.kept ↔ loop.batch = [] := by
  simp [kept]

end PushLoop

section Kept

variable {layer : LogPushLayer} (loop : PushLoop) (sandboxId : String) (accepted : Bool)

theorem kept_drain :
    loop.drain.kept.Sublist loop.kept ∧
      (loop.drain.kept = loop.kept ↔ (!loop.channel.isEmpty && decide (maxBuffered ≤ loop.batch.length)) = false) := by
  unfold PushLoop.drain
  split
  · rename_i waiting
    rw [waiting]
    split
    · simp [PushLoop.kept_retry]
    · simp
  · rename_i line rest waiting
    rw [waiting]
    split
    · rename_i room
      simp [PushLoop.kept_take waiting, room]
    · rename_i full
      simp [PushLoop.kept, PushLoop.sent, waiting, Nat.le_of_not_lt full]

theorem kept_flush :
    (loop.flush sandboxId accepted).kept.Sublist loop.kept ∧
      ((loop.flush sandboxId accepted).kept = loop.kept ↔ (!loop.batch.isEmpty && !accepted) = false) := by
  unfold PushLoop.flush
  cases accepted with
  | true => simp [PushLoop.kept_send_accepted]
  | false =>
    simp [PushLoop.kept_reconnect, PushLoop.kept_send_refused, PushLoop.sent_channel_sublist,
      PushLoop.sent_channel_eq_kept_iff]

theorem kept_resume :
    (loop.resume sandboxId accepted).kept.Sublist loop.kept ∧
      ((loop.resume sandboxId accepted).kept = loop.kept ↔ (!loop.batch.isEmpty && !accepted) = false) := by
  have flushed := kept_flush loop sandboxId accepted
  unfold PushLoop.resume
  cases empty : loop.batch.isEmpty with
  | true => simp [PushLoop.kept_enter]
  | false => cases accepted <;> simpa [empty, PushLoop.flush, PushLoop.kept_enter] using flushed

theorem kept_receive :
    (loop.receive sandboxId accepted).kept.Sublist loop.kept ∧
      ((loop.receive sandboxId accepted).kept = loop.kept ↔
        (!accepted && if loop.channel.isEmpty then loop.closed && !loop.batch.isEmpty
          else decide (batchSize ≤ loop.batch.length + 1)) = false) := by
  unfold PushLoop.receive
  split
  · rename_i waiting
    rw [waiting]
    cases closed : loop.closed with
    | false => simp
    | true =>
      have flushed := kept_flush loop sandboxId accepted
      cases empty : loop.batch.isEmpty with
      | true => simp [PushLoop.kept_enter]
      | false =>
        cases accepted <;> simpa [empty, PushLoop.flush, PushLoop.kept_enter, PushLoop.kept_reconnect] using flushed
  · rename_i line rest waiting
    have flushed := kept_flush (loop.take line rest) sandboxId accepted
    rw [PushLoop.kept_take waiting] at flushed
    have size : (loop.take line rest).batch.length = loop.batch.length + 1 := by simp [PushLoop.take]
    have filled : (loop.take line rest).batch.isEmpty = false := by simp [PushLoop.take]
    rw [waiting, size]
    split
    · rename_i full
      simpa [full, filled] using flushed
    · rename_i room
      simp [PushLoop.kept_take waiting, room]

variable {loop}

theorem kept_step (event : PushEvent) :
    (step layer loop event).kept.Sublist (loop.kept ++ event.lines layer) ∧
      ((step layer loop event).kept = loop.kept ++ event.lines layer ↔ loses layer loop event = false) := by
  cases event with
  | emit nowMs event =>
    simp only [step, PushEvent.lines, loses]
    cases made : layer.line nowMs event with
    | none => simp
    | some line =>
      simp only [PushLoop.kept_trySend, Option.isSome_some, Option.toList_some, Bool.true_and]
      split
      · rename_i dropped
        simp [dropped]
      · rename_i room
        simpa using room
  | close => simp [step, PushEvent.lines, loses, PushLoop.kept, PushLoop.sent]
  | connect reached =>
    simp only [step, PushEvent.lines, loses]
    split
    · split <;> simp [PushLoop.kept, PushLoop.sent, PushLoop.enter]
    · simp
  | drain =>
    simp only [step, PushEvent.lines, loses, List.append_nil]
    split
    · rename_i here
      simpa [here] using kept_drain loop
    · rename_i other
      simp [other]
  | deadline =>
    simp only [step, PushEvent.lines, loses, List.append_nil]
    split
    · simp [PushLoop.kept_retry]
    · simp
  | resume accepted =>
    simp only [step, PushEvent.lines, loses, List.append_nil]
    split
    · rename_i here
      simpa [here] using kept_resume loop layer.sandboxId accepted
    · rename_i other
      simp [other]
  | receive accepted =>
    simp only [step, PushEvent.lines, loses, List.append_nil]
    split
    · rename_i here
      simpa [here] using kept_receive loop layer.sandboxId accepted
    · rename_i other
      simp [other]
  | tick accepted =>
    simp only [step, PushEvent.lines, loses, List.append_nil]
    split
    · rename_i here
      have flushed := kept_flush loop layer.sandboxId accepted
      unfold PushLoop.tick
      cases empty : loop.batch.isEmpty with
      | true => simp [here]
      | false => simpa [here, empty] using flushed
    · rename_i other
      simp [other]
  | rpcDone =>
    simp only [step, PushEvent.lines, loses, List.append_nil]
    split
    · simp [PushLoop.kept_reconnect]
    · simp

/-- A step only adds requests. -/
theorem requests_step (event : PushEvent) : loop.requests <+: (step layer loop event).requests := by
  have send : ∀ (loop : PushLoop) (accepted : Bool),
      loop.requests <+: (loop.send layer.sandboxId accepted).requests := by
    intro loop accepted
    cases accepted
    · exact List.prefix_rfl
    · exact List.prefix_append _ _
  cases event <;>
    simp only [step, PushLoop.trySend, PushLoop.drain, PushLoop.resume, PushLoop.receive, PushLoop.tick, PushLoop.flush]
  all_goals repeat' split
  all_goals first
    | exact List.prefix_rfl
    | exact List.prefix_append _ _
    | exact send loop _

end Kept


/-! What the loop holds at most, and what it sends. -/

structure PushLoop.Bounded (sandboxId : String) (loop : PushLoop) : Prop where
  channel : loop.channel.length ≤ channelCapacity
  batch : loop.batch.length ≤ maxBuffered
  exited : loop.phase = .exited → loop.closed = true ∧ loop.channel = [] ∧ loop.batch = []
  backoff : initialBackoff ≤ loop.backoff ∧ loop.backoff ≤ maxBackoff
  opened : ∀ request ∈ loop.requests, request.1 ≤ loop.call
  unopened : loop.phase = .resuming → ∀ request ∈ loop.requests, request.1 < loop.call
  sizes : ∀ request ∈ loop.requests,
    request.2.sandboxId = sandboxId ∧ request.2.logs ≠ [] ∧ request.2.logs.length ≤ maxBuffered
  /-- Only the first request of a call may be larger than a batch. -/
  later : loop.requests.Pairwise fun earlier later =>
    earlier.1 ≤ later.1 ∧ (earlier.1 = later.1 → later.2.logs.length ≤ batchSize)

/-- Between two steps, what is gathered on an open stream is less than a batch. -/
structure PushLoop.Steady (sandboxId : String) (loop : PushLoop) : Prop extends loop.Bounded sandboxId where
  streaming : loop.phase = .streaming → loop.batch.length < batchSize

namespace PushLoop.Bounded

variable {sandboxId : String} {loop : PushLoop}

theorem start : PushLoop.Bounded sandboxId {} where
  channel := Nat.zero_le _
  batch := Nat.zero_le _
  exited := nofun
  backoff := by decide
  opened := by simp
  unopened := nofun
  sizes := by simp
  later := .nil

theorem trySend (bounded : loop.Bounded sandboxId) (line : SandboxLogLine) : (loop.trySend line).Bounded sandboxId := by
  unfold PushLoop.trySend
  split
  · exact bounded
  · rename_i open_
    simp only [Bool.or_eq_true, beq_iff_eq, decide_eq_true_eq, not_or, Nat.not_le] at open_
    refine { bounded with channel := ?_, exited := fun exited => absurd exited open_.1.2 }
    rw [List.length_append]
    exact open_.2

theorem close (bounded : loop.Bounded sandboxId) : PushLoop.Bounded sandboxId { loop with closed := true } :=
  { bounded with exited := fun exited => ⟨rfl, (bounded.exited exited).2⟩ }

/-- Wherever the loop goes to connect, its buffers and its requests stay. -/
theorem connecting (bounded : loop.Bounded sandboxId) {backoff : Nat}
    (range : initialBackoff ≤ backoff ∧ backoff ≤ maxBackoff) :
    PushLoop.Bounded sandboxId { loop with backoff, phase := .connecting } :=
  { bounded with exited := nofun, backoff := range, unopened := nofun }

theorem reconnect (bounded : loop.Bounded sandboxId) : loop.reconnect.Bounded sandboxId :=
  bounded.connecting (by decide)

theorem retry (bounded : loop.Bounded sandboxId) : loop.retry.Bounded sandboxId := by
  apply bounded.connecting
  have range := bounded.backoff
  simp only [initialBackoff, maxBackoff] at range ⊢
  omega

theorem connected (bounded : loop.Bounded sandboxId) :
    PushLoop.Bounded sandboxId { loop with backoff := initialBackoff, phase := .resuming, call := loop.call + 1 } :=
  { bounded with
    exited := nofun
    backoff := ⟨Nat.le_refl _, show initialBackoff ≤ maxBackoff by decide⟩
    opened := fun request member => Nat.le_succ_of_le (bounded.opened request member)
    unopened := fun _ request member => Nat.lt_succ_of_le (bounded.opened request member) }

theorem backingOff (bounded : loop.Bounded sandboxId) : (loop.enter .backingOff).Bounded sandboxId :=
  { bounded with exited := nofun, unopened := nofun }

theorem enter_self {phase : Phase} (here : loop.phase = phase) : loop.enter phase = loop := by
  subst here
  rfl

theorem take (bounded : loop.Bounded sandboxId) {line : SandboxLogLine} {rest : List SandboxLogLine}
    (waiting : loop.channel = line :: rest) (here : loop.phase ≠ .exited) (room : loop.batch.length < maxBuffered) :
    (loop.take line rest).Bounded sandboxId :=
  { bounded with
    channel := by
      have size := bounded.channel
      rw [waiting, List.length_cons] at size
      exact Nat.le_of_succ_le size
    batch := by
      rw [PushLoop.take, List.length_append]
      exact room
    exited := fun exited => absurd exited here }

theorem refused (bounded : loop.Bounded sandboxId) : (loop.send sandboxId false).Bounded sandboxId :=
  { bounded with
    batch := Nat.zero_le _
    exited := fun exited => ⟨(bounded.exited exited).1, (bounded.exited exited).2.1, rfl⟩ }

theorem exit (bounded : loop.Bounded sandboxId) (closed : loop.closed = true) (drained : loop.channel = [])
    (sent : loop.batch = []) : (loop.enter .exited).Bounded sandboxId :=
  { bounded with exited := fun _ => ⟨closed, drained, sent⟩, unopened := nofun }

/-- A request that the call takes: it is the first of its call, or no larger than a batch. -/
theorem accepted (bounded : loop.Bounded sandboxId) (filled : loop.batch ≠ [])
    (first : loop.batch.length ≤ batchSize ∨ ∀ request ∈ loop.requests, request.1 < loop.call) :
    ((loop.send sandboxId true).enter .streaming).Bounded sandboxId where
  channel := bounded.channel
  batch := Nat.zero_le _
  exited := nofun
  backoff := bounded.backoff
  opened := by
    intro request member
    rcases List.mem_append.mp member with before | new
    · exact bounded.opened request before
    · rw [List.mem_singleton.mp new]
      exact Nat.le_refl _
  unopened := nofun
  sizes := by
    intro request member
    rcases List.mem_append.mp member with before | new
    · exact bounded.sizes request before
    · rw [List.mem_singleton.mp new]
      exact ⟨rfl, filled, bounded.batch⟩
  later := by
    refine List.pairwise_append.mpr ⟨bounded.later, List.pairwise_singleton _ _, ?_⟩
    intro earlier member request new
    obtain rfl := List.mem_singleton.mp new
    refine ⟨bounded.opened earlier member, ?_⟩
    intro same
    rcases first with small | unused
    · exact small
    · exact absurd same (Nat.ne_of_lt (unused earlier member))

theorem flush (bounded : loop.Bounded sandboxId) (accepted : Bool) (here : loop.phase = .streaming)
    (filled : loop.batch ≠ []) (small : loop.batch.length ≤ batchSize) :
    (loop.flush sandboxId accepted).Steady sandboxId := by
  unfold PushLoop.flush
  cases accepted with
  | false => exact { bounded.refused.reconnect with streaming := nofun }
  | true =>
    have sent := bounded.accepted filled (.inl small)
    rw [enter_self (show (loop.send sandboxId true).phase = .streaming from here)] at sent
    exact { sent with streaming := fun _ => show 0 < batchSize by decide }

theorem lastRequest (bounded : loop.Bounded sandboxId) (accepted : Bool) (closed : loop.closed = true)
    (drained : loop.channel = []) (filled : loop.batch ≠ []) (small : loop.batch.length ≤ batchSize) :
    ((loop.send sandboxId accepted).enter .exited).Bounded sandboxId := by
  cases accepted with
  | false => exact bounded.refused.exit closed drained rfl
  | true =>
    have sent := bounded.accepted filled (.inl small)
    exact sent.exit closed drained rfl

end PushLoop.Bounded

namespace PushLoop.Steady

variable {sandboxId : String} {loop : PushLoop}

theorem drain (steady : loop.Steady sandboxId) (here : loop.phase = .backingOff) : loop.drain.Steady sandboxId := by
  unfold PushLoop.drain
  split
  · split
    · exact { steady.retry with streaming := nofun }
    · exact steady
  · rename_i line rest waiting
    have staying : loop.phase ≠ .exited := by simp [here]
    split
    · rename_i room
      have taken := steady.take waiting staying room
      exact { taken with streaming := fun streaming => absurd (here.symm.trans streaming) nofun }
    · have size := steady.channel
      rw [waiting, List.length_cons] at size
      exact { steady with
        channel := Nat.le_of_succ_le size
        exited := fun exited => absurd exited staying }

theorem resume (steady : loop.Steady sandboxId) (accepted : Bool) (here : loop.phase = .resuming) :
    (loop.resume sandboxId accepted).Steady sandboxId := by
  unfold PushLoop.resume
  split
  · rename_i empty
    have none : loop.batch = [] := List.isEmpty_iff.mp empty
    exact { steady with
      exited := nofun
      unopened := nofun
      streaming := fun _ => by simp [PushLoop.enter, none, batchSize] }
  · rename_i some
    have filled : loop.batch ≠ [] := fun none => some (List.isEmpty_iff.mpr none)
    split
    · have sent := steady.accepted filled (.inr (steady.unopened here))
      exact { sent with streaming := fun _ => show 0 < batchSize by decide }
    · exact { steady.refused.reconnect with streaming := nofun }

theorem receive (steady : loop.Steady sandboxId) (accepted : Bool) (here : loop.phase = .streaming) :
    (loop.receive sandboxId accepted).Steady sandboxId := by
  have small := steady.streaming here
  unfold PushLoop.receive
  split
  · rename_i drained
    split
    · rename_i closed
      split
      · rename_i empty
        exact { steady.exit closed drained (List.isEmpty_iff.mp empty) with streaming := nofun }
      · rename_i some
        have filled : loop.batch ≠ [] := fun none => some (List.isEmpty_iff.mpr none)
        exact { steady.lastRequest accepted closed drained filled (Nat.le_of_lt small) with streaming := nofun }
    · exact steady
  · rename_i line rest waiting
    have staying : loop.phase ≠ .exited := by simp [here]
    have room : loop.batch.length < maxBuffered := Nat.lt_trans small (by decide)
    have taken := steady.take waiting staying room
    have size : (loop.take line rest).batch.length = loop.batch.length + 1 := by simp [PushLoop.take]
    split
    · refine taken.flush accepted here (by simp [PushLoop.take]) ?_
      rw [size]
      exact small
    · rename_i more
      exact { taken with streaming := fun _ => Nat.lt_of_not_le more }

theorem tick (steady : loop.Steady sandboxId) (accepted : Bool) (here : loop.phase = .streaming) :
    (loop.tick sandboxId accepted).Steady sandboxId := by
  unfold PushLoop.tick
  split
  · exact steady
  · rename_i some
    have filled : loop.batch ≠ [] := fun none => some (List.isEmpty_iff.mpr none)
    exact steady.flush accepted here filled (Nat.le_of_lt (steady.streaming here))

theorem step {layer : LogPushLayer} (steady : loop.Steady layer.sandboxId) (event : PushEvent) :
    (step layer loop event).Steady layer.sandboxId := by
  cases event with
  | emit nowMs event =>
    simp only [LogPush.step]
    split
    · rename_i line _
      refine { steady.trySend line with streaming := ?_ }
      unfold PushLoop.trySend
      split <;> exact steady.streaming
    · exact steady
  | close => exact { steady.close with streaming := steady.streaming }
  | connect reached =>
    simp only [LogPush.step]
    split
    · split
      · exact { steady.connected with streaming := nofun }
      · exact { steady.backingOff with streaming := nofun }
    · exact steady
  | drain =>
    simp only [LogPush.step]
    split
    · exact steady.drain ‹_›
    · exact steady
  | deadline =>
    simp only [LogPush.step]
    split
    · exact { steady.retry with streaming := nofun }
    · exact steady
  | resume accepted =>
    simp only [LogPush.step]
    split
    · exact steady.resume accepted ‹_›
    · exact steady
  | receive accepted =>
    simp only [LogPush.step]
    split
    · exact steady.receive accepted ‹_›
    · exact steady
  | tick accepted =>
    simp only [LogPush.step]
    split
    · exact steady.tick accepted ‹_›
    · exact steady
  | rpcDone =>
    simp only [LogPush.step]
    split
    · exact { steady.reconnect with streaming := nofun }
    · exact steady

theorem run {layer : LogPushLayer} (events : List PushEvent) :
    (Machine.run (LogPush.step layer) {} events).Steady layer.sandboxId :=
  Machine.run_invariant (PushLoop.Steady layer.sandboxId) (fun _ event _ steady => steady.step event)
    { Bounded.start with streaming := nofun }

end PushLoop.Steady

/-! Whole runs. -/

section Runs

variable (layer : LogPushLayer) (events : List PushEvent)

theorem kept_sublist_emitted : (Machine.run (step layer) {} events).kept.Sublist (emitted layer events) :=
  @Machine.flow_sublist PushLoop _ _ _ PushLoop.kept _ (fun _ event => (kept_step event).1) {} events

/-- Every line that the layer made has been sent or is still buffered, in the order in which it was made, exactly when
no step lost one. -/
theorem kept_eq_emitted_iff :
    (Machine.run (step layer) {} events).kept = emitted layer events ↔
      Machine.Along (step layer) (fun loop event => loses layer loop event = false) {} events := by
  have flow := @Machine.flow_eq_iff PushLoop _ _ _ PushLoop.kept _ (fun loop event => loses layer loop event = true)
    (fun _ event => (kept_step event).1) (fun _ event => by rw [(kept_step event).2, Bool.not_eq_true]) {} events
  simp only [Bool.not_eq_true] at flow
  exact flow

/-- The buffers are bounded, each request of the sandbox is filled and at most as large as the buffer, only the first
one of a call is larger than a batch, and a loop that has ended has nothing left to send. -/
theorem run_bounded :
    let loop : PushLoop := Machine.run (step layer) {} events
    loop.channel.length ≤ channelCapacity ∧ loop.batch.length ≤ maxBuffered ∧
      (loop.phase = .streaming → loop.batch.length < batchSize) ∧
      (∀ request ∈ loop.requests, request.2.sandboxId = layer.sandboxId ∧ request.2.logs ≠ [] ∧
        request.2.logs.length ≤ maxBuffered) ∧
      (loop.requests.Pairwise fun earlier later => earlier.1 = later.1 → later.2.logs.length ≤ batchSize) ∧
      (loop.phase = .exited → loop.kept = loop.sent) ∧ initialBackoff ≤ loop.backoff ∧ loop.backoff ≤ maxBackoff := by
  intro loop
  have steady : loop.Steady layer.sandboxId := PushLoop.Steady.run events
  refine ⟨steady.channel, steady.batch, steady.streaming, steady.sizes, steady.later.imp And.right, ?_, steady.backoff⟩
  intro ended
  obtain ⟨_, channel, batch⟩ := steady.exited ended
  rw [PushLoop.kept, channel, batch, List.append_nil, List.append_nil]

end Runs

end OpenShell.Sandbox.LogPush
