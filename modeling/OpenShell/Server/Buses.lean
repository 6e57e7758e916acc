import OpenShell.Policy.Model

namespace OpenShell.Server

open OpenShell.Policy

/-! The buses of the gateway, maps of channels by sandbox id, and the layer that feeds one of them with the gateway's
own tracing events. -/

/-- A broadcast channel: its receivers, and what was sent while there were any. -/
structure Channel (ε : Type) where
  capacity : Nat
  receivers : Nat := 0
  sent : List ε := []

namespace Channel

variable {ε : Type}

def send (channel : Channel ε) (event : ε) : Channel ε :=
  if channel.receivers = 0 then channel else { channel with sent := channel.sent ++ [event] }

def subscribe (channel : Channel ε) : Channel ε := { channel with receivers := channel.receivers + 1 }

/-- `entry(…).or_insert_with(…)`. -/
def senderFor (capacity : Nat) (senders : StringMap (Channel ε)) (sandboxId : String) : Channel ε :=
  (senders.lookup sandboxId).getD { capacity }

end Channel

/-- What `TracingLogBus` and `PlatformEventBus` hold: `per_id` or `senders`, and `tails`. -/
structure EventBus (ε : Type) where
  senders : StringMap (Channel ε) := ∅
  tails : StringMap (List ε) := ∅

namespace EventBus

variable {ε : Type}

/-- `while deque.len() > tail_cap { deque.pop_front(); }`. -/
def trimTail (tailCap : Nat) (deque : List ε) : List ε := deque.drop (deque.length - tailCap)

def subscribe (bus : EventBus ε) (sandboxId : String) : EventBus ε :=
  { bus with senders := bus.senders.insert sandboxId (Channel.senderFor 1024 bus.senders sandboxId).subscribe }

def publish (bus : EventBus ε) (sandboxId : String) (event : ε) (tailCap : Nat) : EventBus ε where
  senders := bus.senders.insert sandboxId ((Channel.senderFor 1024 bus.senders sandboxId).send event)
  tails := bus.tails.insert sandboxId (trimTail tailCap (((bus.tails.lookup sandboxId).getD []) ++ [event]))

def remove (bus : EventBus ε) (sandboxId : String) : EventBus ε where
  senders := bus.senders.erase sandboxId
  tails := bus.tails.erase sandboxId

/-- The bus has no entry for the id. -/
def Free (bus : EventBus ε) (sandboxId : String) : Prop := sandboxId ∉ bus.senders ∧ sandboxId ∉ bus.tails

theorem free_remove (bus : EventBus ε) (sandboxId : String) : (bus.remove sandboxId).Free sandboxId := by
  constructor
  · intro held
    exact (AList.mem_erase.mp held).1 rfl
  · intro held
    exact (AList.mem_erase.mp held).1 rfl

theorem publish_not_free (bus : EventBus ε) (sandboxId : String) (event : ε) (tailCap : Nat) :
    ¬(bus.publish sandboxId event tailCap).Free sandboxId :=
  fun free => free.1 ((AList.mem_insert _).mpr (.inl rfl))

end EventBus

structure SandboxLogLine where
  sandboxId : String
  timestampMs : Int
  level : String
  target : String
  message : String
  source : String
  fields : StringMap String := ∅

structure PlatformEvent where
  timestampMs : Int
  source : String
  type : String
  reason : String
  message : String

def TracingLogBus.defaultTail : Nat := 2000

def PlatformEventBus.defaultTail : Nat := 50

structure Buses where
  tracingLog : EventBus SandboxLogLine := {}
  platformEvents : EventBus PlatformEvent := {}
  sandboxWatch : StringMap (Channel Unit) := ∅

/-- A tracing event: its metadata and its fields, of which one may be the message. -/
structure TracingEvent where
  name : String
  level : String
  target : String
  fields : List (String × String)

structure LogVisitor where
  sandboxId : Option String := none
  message : Option String := none

def LogVisitor.record (visitor : LogVisitor) (field : String × String) : LogVisitor :=
  if field.1 = "sandbox_id" then { visitor with sandboxId := some field.2 }
  else if field.1 = "message" then { visitor with message := some field.2 }
  else visitor

def TracingEvent.visit (event : TracingEvent) : LogVisitor := event.fields.foldl LogVisitor.record {}

/-- `SandboxLogLayer::on_event`. -/
def onEvent (nowMs : Int) (bus : EventBus SandboxLogLine) (event : TracingEvent) : EventBus SandboxLogLine :=
  match event.visit.sandboxId with
  | none => bus
  | some sandboxId => bus.publish sandboxId
      { sandboxId
        timestampMs := nowMs
        level := event.level
        target := event.target
        message := event.visit.message.getD event.name
        source := "gateway" } TracingLogBus.defaultTail

namespace Buses

def publishExternal (buses : Buses) (log : SandboxLogLine) : Buses :=
  { buses with tracingLog := buses.tracingLog.publish log.sandboxId log TracingLogBus.defaultTail }

def publishPlatform (buses : Buses) (sandboxId : String) (event : PlatformEvent) : Buses :=
  { buses with platformEvents := buses.platformEvents.publish sandboxId event PlatformEventBus.defaultTail }

def notify (buses : Buses) (sandboxId : String) : Buses :=
  { buses with sandboxWatch :=
      buses.sandboxWatch.insert sandboxId ((Channel.senderFor 128 buses.sandboxWatch sandboxId).send ()) }

def subscribeWatch (buses : Buses) (sandboxId : String) : Buses :=
  { buses with sandboxWatch :=
      buses.sandboxWatch.insert sandboxId (Channel.senderFor 128 buses.sandboxWatch sandboxId).subscribe }

/-- A tracing event that the filter lets through reaches the layer. -/
def trace (buses : Buses) (enabled : TracingEvent → Bool) (nowMs : Int) (event : TracingEvent) : Buses :=
  if enabled event then { buses with tracingLog := onEvent nowMs buses.tracingLog event } else buses

/-- What reaches the buses from outside a handler. -/
inductive Event where
  | publishExternal (log : SandboxLogLine)
  | publishPlatform (sandboxId : String) (event : PlatformEvent)
  | trace (nowMs : Int) (event : TracingEvent)
  | subscribeLog (sandboxId : String)
  | subscribePlatform (sandboxId : String)
  | subscribeWatch (sandboxId : String)
  | notify (sandboxId : String)

def step (enabled : TracingEvent → Bool) (buses : Buses) : Event → Buses
  | .publishExternal log => buses.publishExternal log
  | .publishPlatform sandboxId event => buses.publishPlatform sandboxId event
  | .trace nowMs event => buses.trace enabled nowMs event
  | .subscribeLog sandboxId => { buses with tracingLog := buses.tracingLog.subscribe sandboxId }
  | .subscribePlatform sandboxId => { buses with platformEvents := buses.platformEvents.subscribe sandboxId }
  | .subscribeWatch sandboxId => buses.subscribeWatch sandboxId
  | .notify sandboxId => buses.notify sandboxId

/-- The three removals of the clean-up. -/
def remove (buses : Buses) (sandboxId : String) : Buses where
  tracingLog := buses.tracingLog.remove sandboxId
  platformEvents := buses.platformEvents.remove sandboxId
  sandboxWatch := buses.sandboxWatch.erase sandboxId

structure Free (buses : Buses) (sandboxId : String) : Prop where
  tracingLog : buses.tracingLog.Free sandboxId
  platformEvents : buses.platformEvents.Free sandboxId
  sandboxWatch : sandboxId ∉ buses.sandboxWatch

theorem free_remove (buses : Buses) (sandboxId : String) : (buses.remove sandboxId).Free sandboxId where
  tracingLog := buses.tracingLog.free_remove sandboxId
  platformEvents := buses.platformEvents.free_remove sandboxId
  sandboxWatch := fun held => (AList.mem_erase.mp held).1 rfl

/-- An event about a sandbox makes an entry for it, unless the filter drops the event. -/
theorem free_trace_iff {buses : Buses} {enabled : TracingEvent → Bool} {nowMs : Int} {event : TracingEvent}
    {sandboxId : String} (free : buses.Free sandboxId) (tells : event.visit.sandboxId = some sandboxId) :
    (buses.trace enabled nowMs event).Free sandboxId ↔ enabled event = false := by
  unfold trace
  cases passed : enabled event with
  | false =>
    rw [if_neg Bool.false_ne_true]
    exact iff_of_true free rfl
  | true =>
    rw [if_pos rfl]
    refine iff_of_false (fun still => ?_) (by decide)
    have held := still.tracingLog
    simp only [onEvent, tells] at held
    exact EventBus.publish_not_free _ _ _ _ held

end Buses

end OpenShell.Server
