import Mathlib.Data.List.Induction
import OpenShell.Lib.Counters
import OpenShell.Lib.Machine

namespace OpenShell.Server.LogWatch

/-! The log bus of one sandbox and a client that watches it. A publish sends its event to the channel and then pushes
it to the tail; a watcher subscribes to the channel and then reads the tail. -/

def channelCapacity : Nat := 1024

def defaultTail : Nat := 2000

structure SandboxLogLine where
  timestampMs : Int
  level : String
  source : String
deriving DecidableEq

structure WatchSandboxRequest where
  followLogs : Bool := false
  logTailLines : Nat := 0
  logSinceMs : Int := 0
  logSources : List String := []
  logMinLevel : String := ""

def WatchSandboxRequest.logTail (request : WatchSandboxRequest) : Nat :=
  if request.logTailLines = 0 then 200 else request.logTailLines

def sourceMatches (logSource : String) (filters : List String) : Bool :=
  filters.contains (if logSource = "" then "gateway" else logSource)

def levelNumber (toUppercase : String → String) (level : String) : Nat :=
  match toUppercase level with
  | "ERROR" => 0
  | "WARN" => 1
  | "INFO" => 2
  | "DEBUG" => 3
  | "TRACE" => 4
  | _ => 5

def levelMatches (toUppercase : String → String) (logLevel minLevel : String) : Bool :=
  if minLevel = "" then true else levelNumber toUppercase logLevel ≤ levelNumber toUppercase minLevel

/-- What the watcher shows of the events that it follows. -/
def followed (toUppercase : String → String) (request : WatchSandboxRequest) (log : SandboxLogLine) : Bool :=
  (request.logSources.isEmpty || sourceMatches log.source request.logSources) &&
    levelMatches toUppercase log.level request.logMinLevel

/-- The replay has one more filter: the time of the event. -/
def replayed (toUppercase : String → String) (request : WatchSandboxRequest) (log : SandboxLogLine) : Bool :=
  !(0 < request.logSinceMs && log.timestampMs < request.logSinceMs) && followed toUppercase request log

/-- How far a publish has come: whether the watcher had subscribed when it sent its event, and whether the tail was
    still unread when it pushed it. -/
inductive PublishStage where
  | called
  | sent (live : Bool)
  | pushed (live early : Bool)
deriving DecidableEq

structure Publish where
  log : SandboxLogLine
  stage : PublishStage := .called

/-- How far the watcher has come. `next` is the position of its receiver in the channel. -/
inductive Watcher where
  | idle
  | subscribed (next : Nat)
  | replaying (next : Nat) (pending : List Nat)
  | following (next : Nat)
  | lagged
deriving DecidableEq

def Watcher.hasSubscribed : Watcher → Bool
  | .idle => false
  | .subscribed _ | .replaying _ _ | .following _ | .lagged => true

def Watcher.tailUnread : Watcher → Bool
  | .idle | .subscribed _ => true
  | .replaying _ _ | .following _ | .lagged => false

/-- An event is known by the position of its publish. `channel` holds all that was sent, of which a receiver can still
    read the last `channelCapacity` events. -/
structure State where
  publishes : List Publish := []
  channel : List Nat := []
  tail : List Nat := []
  watcher : Watcher := .idle
  delivered : List Nat := []

/-- `while deque.len() > tail_cap { deque.pop_front(); }`. -/
def trimTail (tailCap : Nat) (deque : List Nat) : List Nat := deque.drop (deque.length - tailCap)

def readTail (tail : List Nat) (max : Nat) : List Nat := (tail.reverse.take max).reverse

def State.shows (state : State) (filter : SandboxLogLine → Bool) (event : Nat) : Bool :=
  state.publishes[event]?.any fun publish => filter publish.log

/-- The next critical section of `publish`. -/
def advance (state : State) (position : Nat) : State :=
  match state.publishes[position]? with
  | none => state
  | some publish =>
    match publish.stage with
    | .called => { state with
        channel := state.channel ++ [position]
        publishes := state.publishes.set position { publish with stage := .sent state.watcher.hasSubscribed } }
    | .sent live => { state with
        tail := trimTail defaultTail (state.tail ++ [position])
        publishes := state.publishes.set position { publish with stage := .pushed live state.watcher.tailUnread } }
    | .pushed _ _ => state

section Watch

variable (toUppercase : String → String) (request : WatchSandboxRequest)

/-- The next step of `handle_watch_sandbox`. -/
def watch (state : State) : State :=
  if request.followLogs then
    match state.watcher with
    | .idle => { state with watcher := .subscribed state.channel.length }
    | .subscribed next => { state with
        watcher := .replaying next
          ((readTail state.tail request.logTail).filter (state.shows (replayed toUppercase request))) }
    | .replaying next (event :: pending) => { state with
        watcher := .replaying next pending
        delivered := state.delivered ++ [event] }
    | .replaying next [] => { state with watcher := .following next }
    | .following next =>
      if next + channelCapacity < state.channel.length then { state with watcher := .lagged }
      else
        match state.channel[next]? with
        | none => state
        | some event => { state with
            watcher := .following (next + 1)
            delivered :=
              if state.shows (followed toUppercase request) event then state.delivered ++ [event]
              else state.delivered }
    | .lagged => state
  else state

inductive Event where
  | publish (log : SandboxLogLine)
  | advance (position : Nat)
  | watch
deriving DecidableEq

def step (state : State) : Event → State
  | .publish log => { state with publishes := state.publishes ++ [{ log }] }
  | .advance position => advance state position
  | .watch => watch toUppercase request state

def run (events : List Event) : State := Machine.run (step toUppercase request) {} events

end Watch

/-- Nothing is left to do: every publish has returned, and the watcher has delivered all that it holds. -/
def Quiet (state : State) : Prop :=
  (∀ publish ∈ state.publishes, ∃ live early, publish.stage = .pushed live early) ∧
    state.watcher = .following state.channel.length

structure Unfiltered (request : WatchSandboxRequest) : Prop where
  followLogs : request.followLogs = true
  anyTime : request.logSinceMs = 0
  anySource : request.logSources = []
  anyLevel : request.logMinLevel = ""

/-- Fewer events than the channel, the tail and the replay can hold. -/
structure Few (request : WatchSandboxRequest) (state : State) : Prop where
  channel : state.publishes.length < channelCapacity
  tail : state.publishes.length < defaultTail
  replay : state.publishes.length < request.logTail

/-! What the watcher owes: every event is delivered as often as the two steps of its publish found a reader. -/

def PublishStage.expected : PublishStage → Nat
  | .called => 0
  | .sent live => live.toNat
  | .pushed live early => live.toNat + early.toNat

def PublishStage.hasSent : PublishStage → Bool
  | .called => false
  | .sent _ | .pushed _ _ => true

def PublishStage.hasPushed : PublishStage → Bool
  | .called | .sent _ => false
  | .pushed _ _ => true

def State.expected (state : State) (event : Nat) : Nat :=
  (state.publishes[event]?).elim 0 fun publish => publish.stage.expected

/-- What the watcher will still deliver of an event that is in the tail and the channel as they stand. -/
def Watcher.owed (watcher : Watcher) (tail channel : List Nat) (event : Nat) : Nat :=
  match watcher with
  | .idle => tail.count event
  | .subscribed next => tail.count event + (channel.drop next).count event
  | .replaying next pending => pending.count event + (channel.drop next).count event
  | .following next => (channel.drop next).count event
  | .lagged => 0

def State.owed (state : State) (event : Nat) : Nat := state.watcher.owed state.tail state.channel event

/-- The receiver has not been overrun and is not ahead of the channel. -/
def Watcher.Reads (watcher : Watcher) (channel : List Nat) : Prop :=
  match watcher with
  | .idle => True
  | .subscribed next | .replaying next _ | .following next => next ≤ channel.length
  | .lagged => False

structure Accounted (state : State) : Prop where
  reads : state.watcher.Reads state.channel
  sent : state.channel.length = state.publishes.countP (·.stage.hasSent)
  pushed : state.tail.length = state.publishes.countP (·.stage.hasPushed)
  delivers : ∀ event, state.delivered.count event + state.owed event = state.expected event

/-- One publish moves on: what is expected changes for its event alone. -/
theorem elim_set {publishes : List Publish} {position : Nat} {publish : Publish} (stage : PublishStage)
    (found : publishes[position]? = some publish) (event : Nat) :
    ((publishes.set position { publish with stage })[event]?).elim 0 (fun publish => publish.stage.expected) =
      if event = position then stage.expected
      else (publishes[event]?).elim 0 fun publish => publish.stage.expected := by
  by_cases here : event = position
  · subst here
    rw [List.getElem?_set_self (List.getElem?_eq_some_iff.mp found).1, if_pos rfl, Option.elim_some]
  · rw [List.getElem?_set_ne (Ne.symm here), if_neg here]

theorem countP_gain (flag : PublishStage → Bool) {publishes : List Publish} {position : Nat} {publish : Publish}
    {stage : PublishStage} (found : publishes[position]? = some publish) (was : flag publish.stage = false)
    (becomes : flag stage = true) :
    (publishes.set position { publish with stage }).countP (fun publish => flag publish.stage) =
      publishes.countP (fun publish => flag publish.stage) + 1 := by
  have counts := List.countP_set_add (fun publish => flag publish.stage) { publish with stage } found
  simpa [was, becomes] using counts

theorem countP_same (flag : PublishStage → Bool) {publishes : List Publish} {position : Nat} {publish : Publish}
    {stage : PublishStage} (found : publishes[position]? = some publish) (same : flag stage = flag publish.stage) :
    (publishes.set position { publish with stage }).countP (fun publish => flag publish.stage) =
      publishes.countP fun publish => flag publish.stage := by
  have counts := List.countP_set_add (fun publish => flag publish.stage) { publish with stage } found
  simpa [same] using counts

theorem count_snoc (items : List Nat) (item event : Nat) :
    (items ++ [item]).count event = items.count event + if event = item then 1 else 0 := by
  rw [List.count_append, List.count_singleton]
  by_cases same : event = item
  · simp [same]
  · simp [same, Ne.symm same]

theorem Watcher.Reads.snoc {watcher : Watcher} {channel : List Nat} (reads : watcher.Reads channel) (position : Nat) :
    watcher.Reads (channel ++ [position]) := by
  have longer : channel.length ≤ (channel ++ [position]).length := by simp
  cases watcher with
  | idle => trivial
  | subscribed next | replaying next pending | following next => exact Nat.le_trans reads longer
  | lagged => exact reads

theorem count_cons_if (item event : Nat) (items : List Nat) :
    (item :: items).count event = items.count event + if event = item then 1 else 0 := by
  rw [List.count_cons]
  by_cases same : event = item
  · simp [same]
  · simp [same, Ne.symm same]

namespace Accounted

variable {state : State}

theorem publish (accounted : Accounted state) (log : SandboxLogLine) :
    Accounted { state with publishes := state.publishes ++ [{ log }] } := by
  refine ⟨accounted.reads, ?_, ?_, ?_⟩
  · simpa [PublishStage.hasSent] using accounted.sent
  · simpa [PublishStage.hasPushed] using accounted.pushed
  · intro event
    refine (accounted.delivers event).trans ?_
    unfold State.expected
    rw [List.getElem?_append]
    split
    · rfl
    · rename_i beyond
      rw [List.getElem?_eq_none (Nat.le_of_not_lt beyond), List.getElem?_singleton]
      split
      · rfl
      · rfl

/-- The channel gains an event for the watcher if it has subscribed. -/
theorem owed_send {watcher : Watcher} {channel : List Nat} (reads : watcher.Reads channel) (tail : List Nat)
    (position event : Nat) : watcher.owed tail (channel ++ [position]) event =
      watcher.owed tail channel event + if event = position then watcher.hasSubscribed.toNat else 0 := by
  unfold Watcher.owed
  cases watcher with
  | idle => simp [Watcher.hasSubscribed]
  | subscribed next | replaying next pending =>
    simp only [List.drop_append_of_le_length reads, count_snoc, Watcher.hasSubscribed, Bool.toNat_true, Nat.add_assoc]
  | following next =>
    simp only [List.drop_append_of_le_length reads, count_snoc, Watcher.hasSubscribed, Bool.toNat_true]
  | lagged => cases reads

theorem owed_push (watcher : Watcher) (tail channel : List Nat) (position event : Nat) :
    watcher.owed (tail ++ [position]) channel event =
      watcher.owed tail channel event + if event = position then watcher.tailUnread.toNat else 0 := by
  unfold Watcher.owed
  cases watcher with
  | idle => simp only [count_snoc, Watcher.tailUnread, Bool.toNat_true]
  | subscribed next =>
    simp only [count_snoc, Watcher.tailUnread, Bool.toNat_true]
    omega
  | replaying next pending | following next | lagged => simp [Watcher.tailUnread]

theorem send (accounted : Accounted state) {position : Nat} {publish : Publish}
    (found : state.publishes[position]? = some publish) (called : publish.stage = .called) :
    Accounted { state with
      channel := state.channel ++ [position]
      publishes := state.publishes.set position { publish with stage := .sent state.watcher.hasSubscribed } } := by
  refine ⟨accounted.reads.snoc position, ?_, ?_, ?_⟩
  · rw [List.length_append, List.length_singleton, accounted.sent]
    exact (countP_gain PublishStage.hasSent found (by rw [called]; rfl) rfl).symm
  · rw [accounted.pushed]
    exact (countP_same PublishStage.hasPushed found (by rw [called]; rfl)).symm
  · intro event
    have delivers : _ + state.watcher.owed state.tail state.channel event = _ := accounted.delivers event
    rw [State.owed, owed_send accounted.reads, State.expected, elim_set _ found, ← Nat.add_assoc, delivers,
      State.expected]
    by_cases here : event = position
    · subst here
      rw [if_pos rfl, if_pos rfl, found, Option.elim_some, called, PublishStage.expected, PublishStage.expected,
        Nat.zero_add]
    · rw [if_neg here, if_neg here, Nat.add_zero]

theorem push_whole (accounted : Accounted state) (few : state.publishes.length < defaultTail) (position : Nat) :
    trimTail defaultTail (state.tail ++ [position]) = state.tail ++ [position] := by
  have short : state.tail.length < defaultTail := by
    rw [accounted.pushed]
    exact Nat.lt_of_le_of_lt List.countP_le_length few
  rw [trimTail, List.length_append, List.length_singleton, Nat.sub_eq_zero_of_le short, List.drop_zero]

theorem push (accounted : Accounted state) {position : Nat} {publish : Publish} {live : Bool}
    (found : state.publishes[position]? = some publish) (called : publish.stage = .sent live)
    (few : state.publishes.length < defaultTail) :
    Accounted { state with
      tail := trimTail defaultTail (state.tail ++ [position])
      publishes := state.publishes.set position { publish with stage := .pushed live state.watcher.tailUnread } } := by
  rw [accounted.push_whole few]
  refine ⟨accounted.reads, ?_, ?_, ?_⟩
  · rw [accounted.sent]
    exact (countP_same PublishStage.hasSent found (by rw [called]; rfl)).symm
  · rw [List.length_append, List.length_singleton, accounted.pushed]
    exact (countP_gain PublishStage.hasPushed found (by rw [called]; rfl) rfl).symm
  · intro event
    have delivers : _ + state.watcher.owed state.tail state.channel event = _ := accounted.delivers event
    rw [State.owed, owed_push, State.expected, elim_set _ found, ← Nat.add_assoc, delivers, State.expected]
    by_cases here : event = position
    · subst here
      rw [if_pos rfl, if_pos rfl, found, Option.elim_some, called, PublishStage.expected, PublishStage.expected]
    · rw [if_neg here, if_neg here, Nat.add_zero]

theorem advance (accounted : Accounted state) (few : state.publishes.length < defaultTail) (position : Nat) :
    Accounted (advance state position) := by
  unfold LogWatch.advance
  split
  · exact accounted
  · rename_i publish found
    split
    · exact accounted.send found ‹_›
    · exact accounted.push found ‹_› few
    · exact accounted

theorem shows_of_owed (accounted : Accounted state) {event : Nat} (owed : 0 < state.owed event)
    {filter : SandboxLogLine → Bool} (all : ∀ log, filter log = true) : state.shows filter event = true := by
  have delivers := accounted.delivers event
  unfold State.shows
  cases found : state.publishes[event]? with
  | none =>
    rw [State.expected, found, Option.elim_none] at delivers
    omega
  | some publish => exact all publish.log

end Accounted

section Watching

variable {toUppercase : String → String} {request : WatchSandboxRequest} {state : State}

theorem Unfiltered.followed (unfiltered : Unfiltered request) (log : SandboxLogLine) :
    followed toUppercase request log = true := by
  unfold LogWatch.followed levelMatches
  rw [unfiltered.anySource, unfiltered.anyLevel]
  rfl

theorem Unfiltered.replayed (unfiltered : Unfiltered request) (log : SandboxLogLine) :
    replayed toUppercase request log = true := by
  unfold LogWatch.replayed
  rw [unfiltered.followed, unfiltered.anyTime]
  rfl

theorem readTail_whole {tail : List Nat} {max : Nat} (fits : tail.length ≤ max) : readTail tail max = tail := by
  rw [readTail, List.take_of_length_le (by rwa [List.length_reverse]), List.reverse_reverse]

/-- Everything that the tail holds is replayed. -/
theorem pending_eq_tail (accounted : Accounted state) (unfiltered : Unfiltered request) (few : Few request state)
    {next : Nat} (watching : state.watcher = .subscribed next) :
    (readTail state.tail request.logTail).filter (state.shows (replayed toUppercase request)) = state.tail := by
  have short : state.tail.length ≤ request.logTail := by
    rw [accounted.pushed]
    exact Nat.le_trans List.countP_le_length (Nat.le_of_lt few.replay)
  rw [readTail_whole short, List.filter_eq_self]
  intro event member
  apply accounted.shows_of_owed _ unfiltered.replayed
  rw [State.owed, watching]
  exact Nat.add_pos_left (List.count_pos_iff.mpr member) _

/-- The watcher moves on: what it delivers is what it no longer owes. -/
theorem Accounted.move (accounted : Accounted state) {watcher : Watcher} {delivered : List Nat}
    (reads : watcher.Reads state.channel) (same : ∀ event, delivered.count event +
      watcher.owed state.tail state.channel event = state.delivered.count event + state.owed event) :
    Accounted { state with watcher, delivered } :=
  ⟨reads, accounted.sent, accounted.pushed, fun event => (same event).trans (accounted.delivers event)⟩

theorem drop_eq_cons {channel : List Nat} {next event : Nat} (found : channel[next]? = some event) :
    channel.drop next = event :: channel.drop (next + 1) := by
  obtain ⟨bound, rfl⟩ := List.getElem?_eq_some_iff.mp found
  exact List.drop_eq_getElem_cons bound

theorem Accounted.watch (accounted : Accounted state) (unfiltered : Unfiltered request) (few : Few request state) :
    Accounted (watch toUppercase request state) := by
  unfold LogWatch.watch
  rw [if_pos unfiltered.followLogs]
  have reads := accounted.reads
  split
  · rename_i watching
    refine accounted.move ?_ ?_
    · exact Nat.le_refl _
    · intro event
      rw [State.owed, watching, Watcher.owed, Watcher.owed, List.drop_length, List.count_nil, Nat.add_zero]
  · rename_i next watching
    rw [watching] at reads
    rw [pending_eq_tail accounted unfiltered few watching]
    refine accounted.move ?_ ?_
    · exact reads
    · intro event
      rw [State.owed, watching, Watcher.owed, Watcher.owed]
  · rename_i next event pending watching
    rw [watching] at reads
    refine accounted.move ?_ ?_
    · exact reads
    · intro other
      rw [State.owed, watching, Watcher.owed, Watcher.owed, count_snoc, count_cons_if]
      omega
  · rename_i next watching
    rw [watching] at reads
    refine accounted.move ?_ ?_
    · exact reads
    · intro event
      rw [State.owed, watching, Watcher.owed, Watcher.owed, List.count_nil, Nat.zero_add]
  · rename_i next watching
    have sent : state.channel.length < channelCapacity := by
      rw [accounted.sent]
      exact Nat.lt_of_le_of_lt List.countP_le_length few.channel
    rw [if_neg (by omega)]
    split
    · exact accounted
    · rename_i event found
      have rest := drop_eq_cons found
      have shown : state.shows (followed toUppercase request) event = true := by
        apply accounted.shows_of_owed _ unfiltered.followed
        rw [State.owed, watching, Watcher.owed, rest]
        exact List.count_pos_iff.mpr List.mem_cons_self
      rw [if_pos shown]
      refine accounted.move ?_ ?_
      · exact (List.getElem?_eq_some_iff.mp found).1
      · intro other
        rw [State.owed, watching, Watcher.owed, Watcher.owed, count_snoc, rest, count_cons_if]
        omega
  · rename_i watching
    rw [watching] at reads
    cases reads

theorem publishes_advance (state : State) (position : Nat) :
    (advance state position).publishes.length = state.publishes.length := by
  unfold advance
  split
  · rfl
  · split
    · rw [List.length_set]
    · rw [List.length_set]
    · rfl

/-- The watcher leaves the bus as it is. -/
theorem watch_frame (toUppercase : String → String) (request : WatchSandboxRequest) (state : State) :
    ∃ watcher delivered, watch toUppercase request state = { state with watcher, delivered } := by
  unfold watch
  split
  · split
    · exact ⟨_, _, rfl⟩
    · exact ⟨_, _, rfl⟩
    · exact ⟨_, _, rfl⟩
    · exact ⟨_, _, rfl⟩
    · split
      · exact ⟨_, _, rfl⟩
      · split
        · exact ⟨_, _, rfl⟩
        · exact ⟨_, _, rfl⟩
    · exact ⟨_, _, rfl⟩
  · exact ⟨_, _, rfl⟩

theorem Few.mono {later : State} (few : Few request later) (fewer : state.publishes.length ≤ later.publishes.length) :
    Few request state :=
  ⟨Nat.lt_of_le_of_lt fewer few.channel, Nat.lt_of_le_of_lt fewer few.tail, Nat.lt_of_le_of_lt fewer few.replay⟩

theorem publishes_step (state : State) (event : Event) :
    state.publishes.length ≤ (step toUppercase request state event).publishes.length := by
  cases event with
  | publish log => simp [step]
  | advance position => exact Nat.le_of_eq (publishes_advance state position).symm
  | watch =>
    obtain ⟨watcher, delivered, same⟩ := watch_frame toUppercase request state
    rw [step, same]

theorem Accounted.step (accounted : Accounted state) (unfiltered : Unfiltered request) (few : Few request state)
    (event : Event) : Accounted (step toUppercase request state event) := by
  cases event with
  | publish log => exact accounted.publish log
  | advance position => exact accounted.advance few.tail position
  | watch => exact accounted.watch unfiltered few

theorem accounted_run (unfiltered : Unfiltered request) (events : List Event)
    (few : Few request (run toUppercase request events)) : Accounted (run toUppercase request events) := by
  refine Machine.run_invariant (fun state => Few request state → Accounted state) ?_ ?_ few
  · intro state event _ accounted few
    have before := few.mono (publishes_step state event)
    exact (accounted before).step unfiltered before event
  · intro _
    exact ⟨trivial, rfl, rfl, fun _ => rfl⟩

/-! The steps that are left, so that every run can be brought to rest. -/

def Watcher.work (watcher : Watcher) (tail channel : List Nat) : Nat :=
  match watcher with
  | .idle => 3 + tail.length
  | .subscribed next => 2 + tail.length + (channel.length - next)
  | .replaying next pending => 1 + pending.length + (channel.length - next)
  | .following next => channel.length - next
  | .lagged => 0

/-- A publish counts twice for each of its steps, since a step may leave one more event for the watcher. -/
def State.work (state : State) : Nat :=
  2 * (state.publishes.length - state.channel.length) + 2 * (state.publishes.length - state.tail.length) +
    state.watcher.work state.tail state.channel

theorem work_snoc_channel (watcher : Watcher) (tail channel : List Nat) (position : Nat) :
    watcher.work tail (channel ++ [position]) ≤ watcher.work tail channel + 1 := by
  unfold Watcher.work
  rw [List.length_append, List.length_singleton]
  cases watcher with
  | idle => exact Nat.le_succ _
  | subscribed next | replaying next pending | following next => simp only; omega
  | lagged => exact Nat.zero_le _

theorem work_snoc_tail (watcher : Watcher) (tail channel : List Nat) (position : Nat) :
    watcher.work (tail ++ [position]) channel ≤ watcher.work tail channel + 1 := by
  unfold Watcher.work
  rw [List.length_append, List.length_singleton]
  cases watcher with
  | idle | subscribed next => simp only; omega
  | replaying next pending | following next | lagged => exact Nat.le_succ _

theorem Accounted.sent_le (accounted : Accounted state) : state.channel.length ≤ state.publishes.length := by
  rw [accounted.sent]
  exact List.countP_le_length

theorem Accounted.pushed_le (accounted : Accounted state) : state.tail.length ≤ state.publishes.length := by
  rw [accounted.pushed]
  exact List.countP_le_length

theorem work_advance (accounted : Accounted state) (few : state.publishes.length < defaultTail) {position : Nat}
    {publish : Publish} (found : state.publishes[position]? = some publish)
    (unfinished : publish.stage.hasPushed = false) : (advance state position).work < state.work := by
  have after := accounted.advance few position
  have sent := after.sent_le
  have pushed := after.pushed_le
  rw [publishes_advance] at sent pushed
  unfold advance at sent pushed ⊢
  rw [found] at sent pushed ⊢
  cases stage : publish.stage with
  | called =>
    have more := work_snoc_channel state.watcher state.tail state.channel position
    simp only [stage, State.work, List.length_set, List.length_append, List.length_singleton] at sent ⊢
    omega
  | sent live =>
    have whole := accounted.push_whole few position
    have more := work_snoc_tail state.watcher state.tail state.channel position
    simp only [stage, whole, State.work, List.length_set, List.length_append, List.length_singleton] at pushed ⊢
    omega
  | pushed live early =>
    rw [stage] at unfinished
    cases unfinished

theorem work_watch (accounted : Accounted state) (unfiltered : Unfiltered request) (few : Few request state)
    (unfinished : state.watcher ≠ .following state.channel.length) :
    (watch toUppercase request state).work < state.work := by
  have reads := accounted.reads
  suffices less : (watch toUppercase request state).watcher.work state.tail state.channel <
      state.watcher.work state.tail state.channel by
    obtain ⟨watcher, delivered, same⟩ := watch_frame toUppercase request state
    rw [same] at less ⊢
    exact Nat.add_lt_add_left less _
  unfold watch
  rw [if_pos unfiltered.followLogs]
  split
  · rename_i watching
    simp only [watching, Watcher.work]
    omega
  · rename_i next watching
    simp only [watching, Watcher.work, pending_eq_tail accounted unfiltered few watching]
    omega
  · rename_i next event pending watching
    simp only [watching, Watcher.work, List.length_cons]
    omega
  · rename_i next watching
    simp only [watching, Watcher.work, List.length_nil]
    omega
  · rename_i next watching
    have bound : next ≤ state.channel.length := by
      rw [watching] at reads
      exact reads
    have behind : next ≠ state.channel.length := fun same => unfinished (same ▸ watching)
    have sent := accounted.sent_le
    have fits := few.channel
    rw [if_neg (by omega), List.getElem?_eq_getElem (by omega)]
    simp only [watching, Watcher.work]
    omega
  · rename_i watching
    rw [watching] at reads
    cases reads

/-- A step of a call that is under way, and no new publish. -/
def Event.Continues : Event → Prop
  | .publish _ => False
  | .advance _ | .watch => True

theorem continues_or_quiet (toUppercase : String → String) (accounted : Accounted state)
    (unfiltered : Unfiltered request) (few : Few request state) :
    Quiet state ∨ ∃ event, event.Continues ∧ (step toUppercase request state event).work < state.work := by
  by_cases returned : ∀ publish ∈ state.publishes, publish.stage.hasPushed = true
  · by_cases drained : state.watcher = .following state.channel.length
    · refine .inl ⟨?_, drained⟩
      intro publish member
      have pushed := returned publish member
      cases stage : publish.stage with
      | called | sent live =>
        rw [stage] at pushed
        cases pushed
      | pushed live early => exact ⟨live, early, rfl⟩
    · exact .inr ⟨.watch, trivial, work_watch accounted unfiltered few drained⟩
  · push Not at returned
    obtain ⟨publish, member, unfinished⟩ := returned
    obtain ⟨position, found⟩ := List.mem_iff_getElem?.mp member
    exact .inr ⟨.advance position, trivial,
      work_advance accounted few.tail found (Bool.eq_false_iff.mpr unfinished)⟩

theorem few_step (few : Few request state) {event : Event} (continues : event.Continues) :
    Few request (step toUppercase request state event) := by
  cases event with
  | publish log => cases continues
  | advance position => exact few.mono (Nat.le_of_eq (publishes_advance state position))
  | watch =>
    obtain ⟨watcher, delivered, same⟩ := watch_frame toUppercase request state
    rw [step, same]
    exact few.mono (Nat.le_refl _)

theorem quiet_reached (toUppercase : String → String) (unfiltered : Unfiltered request) (accounted : Accounted state)
    (few : Few request state) :
    ∃ rest : List Event, (∀ event ∈ rest, event.Continues) ∧
      Quiet (Machine.run (step toUppercase request) state rest) := by
  induction left : state.work using Nat.strong_induction_on generalizing state with
  | _ left ih =>
    rcases continues_or_quiet toUppercase accounted unfiltered few with quiet | ⟨event, continues, less⟩
    · exact ⟨[], by simp, quiet⟩
    · have after : Accounted (step toUppercase request state event) := accounted.step unfiltered few event
      obtain ⟨rest, all, quiet⟩ := ih _ (by omega) after (few_step few continues) rfl
      refine ⟨event :: rest, ?_, quiet⟩
      intro other member
      rcases List.mem_cons.mp member with rfl | member
      · exact continues
      · exact all other member

theorem owed_quiet {event : Nat} (quiet : Quiet state) : state.owed event = 0 := by
  rw [State.owed, quiet.2, Watcher.owed, List.drop_length, List.count_nil]

end Watching

/-- Every run comes to rest, and then each event has been delivered once for every step of its publish that found its
    reader: the send a watcher that had subscribed, the push a tail that was still unread. -/
theorem deliveries_eq (toUppercase : String → String) (request : WatchSandboxRequest) (unfiltered : Unfiltered request)
    (events : List Event) (few : Few request (run toUppercase request events)) :
    (∃ rest : List Event, (∀ event ∈ rest, event.Continues) ∧ Quiet (run toUppercase request (events ++ rest))) ∧
      (Quiet (run toUppercase request events) → ∀ position publish live early,
        (run toUppercase request events).publishes[position]? = some publish → publish.stage = .pushed live early →
          (run toUppercase request events).delivered.count position = live.toNat + early.toNat) := by
  have accounted := accounted_run unfiltered events few
  constructor
  · obtain ⟨rest, continues, quiet⟩ := quiet_reached toUppercase unfiltered accounted few
    refine ⟨rest, continues, ?_⟩
    rw [run, Machine.run_append]
    exact quiet
  · intro quiet position publish live early found pushed
    have delivers := accounted.delivers position
    rw [owed_quiet quiet, Nat.add_zero, State.expected, found, Option.elim_some, pushed] at delivers
    exact delivers

/-! Which of the two readers finds an event depends on the order of four steps: the send and the push of its publish,
the subscribe and the tail read of the watcher. -/

section Order

variable (toUppercase : String → String) (request : WatchSandboxRequest)

def State.stage (state : State) (position : Nat) : Option PublishStage :=
  (state.publishes[position]?).map fun publish => publish.stage

/-- The event was sent after the watcher had subscribed. -/
def SentAfterSubscribe (events : List Event) (position : Nat) : Prop :=
  Machine.Met (step toUppercase request) (fun state event => event = .advance position ∧
    state.stage position = some .called ∧ state.watcher.hasSubscribed = true) {} events

/-- The event was pushed before the watcher had read the tail. -/
def PushedBeforeTailRead (events : List Event) (position : Nat) : Prop :=
  Machine.Met (step toUppercase request) (fun state event => event = .advance position ∧
    (∃ live, state.stage position = some (.sent live)) ∧ state.watcher.tailUnread = true) {} events

instance (events : List Event) (position : Nat) : Decidable (SentAfterSubscribe toUppercase request events position) :=
  Machine.decidableMet _ _ _ _

instance (events : List Event) (position : Nat) :
    Decidable (PushedBeforeTailRead toUppercase request events position) :=
  Machine.decidableMet _ _ _ _

/-- The stage of a publish tells in which order its steps and those of the watcher came. -/
def Recalls (sentAfter pushedBefore : Prop) : Option PublishStage → Prop
  | none | some .called => ¬sentAfter ∧ ¬pushedBefore
  | some (.sent live) => (live = true ↔ sentAfter) ∧ ¬pushedBefore
  | some (.pushed live early) => (live = true ↔ sentAfter) ∧ (early = true ↔ pushedBefore)

def PublishStage.next (watcher : Watcher) : PublishStage → PublishStage
  | .called => .sent watcher.hasSubscribed
  | .sent live => .pushed live watcher.tailUnread
  | .pushed live early => .pushed live early

theorem stage_set {publishes : List Publish} {position : Nat} {publish : Publish} (stage : PublishStage)
    (found : publishes[position]? = some publish) (other : Nat) :
    ((publishes.set position { publish with stage })[other]?).map (fun publish => publish.stage) =
      if other = position then some stage else (publishes[other]?).map fun publish => publish.stage := by
  by_cases here : other = position
  · subst here
    rw [List.getElem?_set_self (List.getElem?_eq_some_iff.mp found).1, if_pos rfl, Option.map_some]
  · rw [List.getElem?_set_ne (Ne.symm here), if_neg here]

theorem stage_advance (state : State) (position other : Nat) : (advance state position).stage other =
    if other = position then (state.stage other).map (PublishStage.next state.watcher) else state.stage other := by
  cases found : state.publishes[position]? with
  | none =>
    have same : advance state position = state := by rw [advance, found]
    rw [same]
    split
    · rename_i here
      rw [here, State.stage, found]
      rfl
    · rfl
  | some publish =>
    have stageOf : state.stage position = some publish.stage := by rw [State.stage, found, Option.map_some]
    cases stage : publish.stage with
    | called =>
      have sent := stage_set (.sent state.watcher.hasSubscribed) found other
      rw [advance, found]
      simp only [stage]
      refine sent.trans ?_
      split
      · rename_i here
        rw [here, stageOf, stage]
        rfl
      · rfl
    | sent live =>
      have pushed := stage_set (.pushed live state.watcher.tailUnread) found other
      rw [advance, found]
      simp only [stage]
      refine pushed.trans ?_
      split
      · rename_i here
        rw [here, stageOf, stage]
        rfl
      · rfl
    | pushed live early =>
      have same : advance state position = state := by
        rw [advance, found]
        simp only [stage]
      rw [same]
      split
      · rename_i here
        rw [here, stageOf, stage]
        rfl
      · rfl

/-- A step other than the next one of its publish leaves an event where it was, or it has just been published. -/
theorem stage_other (state : State) {event : Event} {position : Nat} (other : event ≠ .advance position) :
    (step toUppercase request state event).stage position = state.stage position ∨
      state.stage position = none ∧ (step toUppercase request state event).stage position = some .called := by
  cases event with
  | publish log =>
    rw [step, State.stage, State.stage, List.getElem?_append]
    split
    · exact .inl rfl
    · rename_i beyond
      rw [List.getElem?_eq_none (Nat.le_of_not_lt beyond), List.getElem?_singleton]
      split
      · exact .inr ⟨rfl, rfl⟩
      · exact .inl rfl
  | advance moved =>
    refine .inl ?_
    rw [step, stage_advance, if_neg]
    rintro rfl
    exact other rfl
  | watch =>
    obtain ⟨watcher, delivered, same⟩ := watch_frame toUppercase request state
    rw [step, same]
    exact .inl rfl

theorem Recalls.next {sentAfter pushedBefore : Prop} {stage : Option PublishStage}
    (recalls : Recalls sentAfter pushedBefore stage) (watcher : Watcher) :
    Recalls (sentAfter ∨ stage = some .called ∧ watcher.hasSubscribed = true)
      (pushedBefore ∨ (∃ live, stage = some (.sent live)) ∧ watcher.tailUnread = true)
      (stage.map (PublishStage.next watcher)) := by
  cases stage with
  | none => simpa [Recalls] using recalls
  | some stage =>
    cases stage with
    | called =>
      obtain ⟨unsent, unpushed⟩ := recalls
      simp [Recalls, PublishStage.next, unsent, unpushed]
    | sent live =>
      obtain ⟨sent, unpushed⟩ := recalls
      simp [Recalls, PublishStage.next, sent, unpushed]
    | pushed live early =>
      obtain ⟨sent, pushed⟩ := recalls
      simp [Recalls, PublishStage.next, sent, pushed]

theorem recalls_run (events : List Event) (position : Nat) :
    Recalls (SentAfterSubscribe toUppercase request events position)
      (PushedBeforeTailRead toUppercase request events position)
      ((run toUppercase request events).stage position) := by
  induction events using List.reverseRecOn with
  | nil => exact ⟨id, id⟩
  | append_singleton events event ih =>
    have after : run toUppercase request (events ++ [event]) =
        step toUppercase request (run toUppercase request events) event := Machine.run_append _ events [event]
    have sent : SentAfterSubscribe toUppercase request (events ++ [event]) position ↔
        SentAfterSubscribe toUppercase request events position ∨ event = .advance position ∧
          (run toUppercase request events).stage position = some .called ∧
          (run toUppercase request events).watcher.hasSubscribed = true := Machine.met_snoc
    have pushed : PushedBeforeTailRead toUppercase request (events ++ [event]) position ↔
        PushedBeforeTailRead toUppercase request events position ∨ event = .advance position ∧
          (∃ live, (run toUppercase request events).stage position = some (.sent live)) ∧
          (run toUppercase request events).watcher.tailUnread = true := Machine.met_snoc
    rw [sent, pushed, after]
    by_cases here : event = .advance position
    · subst here
      rw [step, stage_advance, if_pos rfl]
      simpa only [true_and] using ih.next (run toUppercase request events).watcher
    · have same := stage_other toUppercase request (run toUppercase request events) here
      simp only [here, false_and, or_false]
      rcases same with same | ⟨none, called⟩
      · rw [same]
        exact ih
      · rw [none] at ih
        rw [called]
        exact ih

end Order

/-- Every run comes to rest, and then an event has been delivered exactly once when exactly one of the two readers of
the watcher found it: the receiver an event that was sent after the subscribe, the replay one that was pushed before the
tail read. -/
theorem delivered_once_iff (toUppercase : String → String) (request : WatchSandboxRequest)
    (unfiltered : Unfiltered request) (events : List Event) (few : Few request (run toUppercase request events)) :
    (∃ rest : List Event, (∀ event ∈ rest, event.Continues) ∧ Quiet (run toUppercase request (events ++ rest))) ∧
      (Quiet (run toUppercase request events) → ∀ position < (run toUppercase request events).publishes.length,
        ((run toUppercase request events).delivered.count position = 1 ↔
          (SentAfterSubscribe toUppercase request events position ↔
            ¬PushedBeforeTailRead toUppercase request events position))) := by
  obtain ⟨rests, deliveries⟩ := deliveries_eq toUppercase request unfiltered events few
  refine ⟨rests, ?_⟩
  intro quiet position bound
  have found := List.getElem?_eq_getElem bound
  obtain ⟨live, early, pushed⟩ := quiet.1 _ (List.getElem_mem bound)
  have recalls := recalls_run toUppercase request events position
  rw [State.stage, found, Option.map_some, pushed] at recalls
  obtain ⟨sent, unread⟩ := recalls
  rw [deliveries quiet position _ live early found pushed, ← sent, ← unread]
  cases live <;> cases early <;> decide

def allLogs : WatchSandboxRequest := { followLogs := true }

theorem allLogs_unfiltered : Unfiltered allLogs := ⟨rfl, rfl, rfl, rfl⟩

def line : SandboxLogLine := ⟨0, "INFO", ""⟩

/-- One event is published before the watcher starts and one after it has read the tail. -/
def apart : List Event :=
  [.publish line, .advance 0, .advance 0, .watch, .watch, .watch, .watch, .publish line, .advance 1, .advance 1, .watch]

theorem apart_once :
    Quiet (run String.toUpper allLogs apart) ∧ (run String.toUpper allLogs apart).delivered.count 0 = 1 ∧
      (run String.toUpper allLogs apart).delivered.count 1 = 1 := by
  have few : Few allLogs (run String.toUpper allLogs apart) := ⟨by decide, by decide, by decide⟩
  have quiet : Quiet (run String.toUpper allLogs apart) := by
    refine ⟨?_, rfl⟩
    intro publish member
    rcases List.mem_pair.mp member with rfl | rfl
    · exact ⟨false, true, rfl⟩
    · exact ⟨true, false, rfl⟩
  have once := (delivered_once_iff String.toUpper allLogs allLogs_unfiltered apart few).2 quiet
  have unsent : ¬SentAfterSubscribe String.toUpper allLogs apart 0 := by decide
  have early : PushedBeforeTailRead String.toUpper allLogs apart 0 := by decide
  have sent : SentAfterSubscribe String.toUpper allLogs apart 1 := by decide
  have late : ¬PushedBeforeTailRead String.toUpper allLogs apart 1 := by decide
  refine ⟨quiet, (once 0 (by decide)).mpr ?_, (once 1 (by decide)).mpr ?_⟩
  · exact iff_of_false unsent (not_not_intro early)
  · exact iff_of_true sent late

/-- The event is sent before the watcher subscribes and pushed after it has read the tail. -/
def across : List Event := [.publish line, .advance 0, .watch, .watch, .advance 0, .watch]

theorem across_missed : ¬∀ (toUppercase : String → String) (request : WatchSandboxRequest), Unfiltered request →
    ∀ events : List Event, Few request (run toUppercase request events) → Quiet (run toUppercase request events) →
      ∀ position < (run toUppercase request events).publishes.length,
        (run toUppercase request events).delivered.count position = 1 := by
  intro claim
  have few : Few allLogs (run String.toUpper allLogs across) := ⟨by decide, by decide, by decide⟩
  have quiet : Quiet (run String.toUpper allLogs across) := by
    refine ⟨?_, rfl⟩
    intro publish member
    rw [List.mem_singleton.mp member]
    exact ⟨false, false, rfl⟩
  have once := claim String.toUpper allLogs allLogs_unfiltered across few quiet 0 (by decide)
  exact absurd once (by decide)

-- The event is published between the two steps of the watcher, and delivered by both readers.
example : (run String.toUpper allLogs
    [.watch, .publish line, .advance 0, .advance 0, .watch, .watch, .watch, .watch]).delivered.count 0 = 2 := by decide

end OpenShell.Server.LogWatch
