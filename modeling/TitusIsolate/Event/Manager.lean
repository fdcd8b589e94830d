import TitusIsolate.Event.Message

/-!
# The event manager

Producers (the thread that pulls Docker's stream, and the scheduler) put events on a
queue. One thread consumes it: it takes an event, then as many more as the queue holds
at that moment, and hands what it took to the handlers, the starts and dies regrouped
into one event and the internal events one by one. Then it counts what it processed.

A producer can put at any moment, so the consumer's loop is cut into the steps between
which another thread can run: each dequeue, the reading of the queue's size, each call of
a handler, and each round of the counting.
-/

namespace TitusIsolate

/-- What a handler is called with. -/
inductive HandlerEvent where
  | containerBatch (event : ContainerBatchEvent)
  | internal (action : InternalAction)

/-- The events of a batch in the order they are handed out. -/
def handlerEvents (batch : List Event) : List HandlerEvent :=
  let internalEvents := getInternalEvents batch
  let containerEvents := getContainerEvents batch
  let events :=
    if containerEvents.length > 0 then
      [HandlerEvent.containerBatch (getContainerBatchEvent containerEvents)]
    else []
  events ++ internalEvents.map HandlerEvent.internal

/-- The calls a batch comes to: every event to every handler, handlers by their index. -/
def handlerCalls (handlerCount : Nat) (batch : List Event) : List (HandlerEvent × Nat) :=
  (handlerEvents batch).flatMap (fun event => (List.range handlerCount).map (fun i => (event, i)))

/-- The action the event names. -/
def Event.action : Event → Action
  | .container e => .container e.action
  | .internal a => .internal a

/-! ## The registry -/

/-- The part of the metrics registry the event manager writes. -/
structure EventRegistry (Time : Type) where
  counters : OrderedDict String Nat
  /-- `QUEUE_LATENCY_KEY` -/
  queueLatency : List Time
  /-- `QUEUE_DEPTH_KEY` -/
  queueDepth : Option Nat

namespace EventRegistry

variable {Time : Type}

/-- A registry nothing was reported to. -/
def empty : EventRegistry Time := ⟨OrderedDict.empty, [], none⟩

/-- `registry.counter(key, tags).increment()` -/
def increment (reg : EventRegistry Time) (key : String) : EventRegistry Time :=
  { reg with counters := reg.counters.insert key ((reg.counters.get? key).getD 0 + 1) }

end EventRegistry

/-! ## The state -/

/-- An entry of the queue. -/
structure QueuedEvent (Time : Type) where
  event : Event
  enqueueTime : Time

/-- Where the consumer is in its loop. -/
inductive ConsumerPhase where
  /-- Before the first dequeue of a batch. -/
  | idle
  /-- Has one event, and is about to read the size of the queue. -/
  | sizing (first : Event)
  /-- Has a batch and is to dequeue so many more. -/
  | gathering (batch : List Event) (remaining : Nat)
  /-- Is handing a batch out: the calls still to be made. -/
  | handling (batch : List Event) (pending : List (HandlerEvent × Nat))
  /-- Has handed a batch out and has so many events left to count. -/
  | counting (remaining : Nat)
  /-- The loop has ended. -/
  | exited
  /-- An exception has left the loop. -/
  | died (error : PyError)

/-- `EventManager`, by its attributes, its queue, and where its consumer is. -/
structure EventManager (Time : Type) where
  /-- `__event_handlers`, as the names of their classes. -/
  handlers : List String
  queue : List (QueuedEvent Time)
  /-- The queue's own count of the tasks that are not done. -/
  unfinishedTasks : Nat
  reg : Option (EventRegistry Time)
  stopped : Bool
  processedCount : Nat
  phase : ConsumerPhase
  /-- History: what has been put, what has been dequeued, the calls of the handlers in order
  with the index of the handler, and how often `task_done` was called. -/
  enqueued : List Event
  dequeued : List Event
  handed : List (HandlerEvent × Nat)
  taskDoneCalls : Nat

/-- What can happen next. -/
inductive ManagerStep (Time : Type) where
  /-- A producer puts an event it accepted. -/
  | put (event : Event) (time : Time)
  /-- The consumer goes on. A handler it calls may raise. -/
  | consume (raises : Bool) (time : Time)
  /-- `stop_processing_events` sets `__stopped`. -/
  | stop

namespace EventManager

variable {Time : Type} [Sub Time]

/-- `EventManager(events, event_handlers)` after `set_registry` and
`start_processing_events`. -/
def init (handlers : List String) (reg : Option (EventRegistry Time)) : EventManager Time where
  handlers := handlers
  queue := []
  unfinishedTasks := 0
  reg := reg
  stopped := false
  processedCount := 0
  phase := .idle
  enqueued := []
  dequeued := []
  handed := []
  taskDoneCalls := 0

/-- `get_queue_depth()` -/
def getQueueDepth (m : EventManager Time) : Nat := m.queue.length

/-- The end of `__put_event`, for an event that is to be handled. -/
def enqueue (m : EventManager Time) (event : Event) (time : Time) : EventManager Time :=
  { m with
    queue := m.queue ++ [⟨event, time⟩]
    unfinishedTasks := m.unfinishedTasks + 1
    enqueued := m.enqueued ++ [event]
    reg := m.reg.map (fun reg => (reg.increment "titus-isolate.enqueuedCount").increment
      s!"titus-isolate.{event.action.name}.eventEnqueued") }

/-- `__dequeue_event()`: `None` when the queue stays empty until the timeout. -/
def dequeueEvent (m : EventManager Time) (time : Time) : Option Event × EventManager Time :=
  match m.queue with
  | [] => (none, m)
  | q :: queue =>
      (some q.event,
        { m with
          queue := queue
          dequeued := m.dequeued ++ [q.event]
          reg := m.reg.map (fun reg =>
            let reg := (reg.increment "titus-isolate.dequeuedCount").increment
              s!"titus-isolate.{q.event.action.name}.eventDequeued"
            { reg with queueLatency := reg.queueLatency ++ [time - q.enqueueTime] }) })

/-- The batch is complete: its events are regrouped and are now to be handed out. -/
def handOut (m : EventManager Time) (batch : List Event) : EventManager Time :=
  { m with phase := .handling batch (handlerCalls m.handlers.length batch) }

/-- One handler is called with one event, and its success or failure reported. -/
def callHandler (m : EventManager Time) (event : HandlerEvent) (i : Nat) (raises : Bool) :
    EventManager Time :=
  let handler := (m.handlers[i]?).getD ""
  let outcome := if raises then "eventFailed" else "eventSucceeded"
  { m with
    handed := m.handed ++ [(event, i)]
    reg := m.reg.map (fun reg => (reg.increment s!"titus-isolate.{handler}.{outcome}").increment
      s!"titus-isolate.{outcome}") }

/-- `__q.task_done()`, after which the loop goes on with `remaining` events. -/
def taskDone (m : EventManager Time) (remaining : Nat) : EventManager Time :=
  match m.unfinishedTasks with
  | 0 => { m with phase := .died (.valueError "task_done() called too many times") }
  | n + 1 =>
      { m with
        unfinishedTasks := n
        taskDoneCalls := m.taskDoneCalls + 1
        phase := .counting remaining }

/-- One round of the counting loop. Without a registry the counter is asked of `None`. -/
def countProcessed (m : EventManager Time) (remaining : Nat) : EventManager Time :=
  match m.reg with
  | none =>
      { m with phase := .died (.exception "'NoneType' object has no attribute 'counter'") }
  | some reg =>
      taskDone { m with
        reg := some (reg.increment "titus-isolate.eventProcessed")
        processedCount := m.processedCount + 1 } remaining

/-- The gauge at the end of a batch. -/
def reportDepth (m : EventManager Time) : EventManager Time :=
  match m.reg with
  | none => { m with phase := .died (.exception "'NoneType' object has no attribute 'gauge'") }
  | some reg =>
      { m with reg := some { reg with queueDepth := some m.getQueueDepth }, phase := .idle }

/-- The consumer's next step in `__get_batch` and `__process_events`. -/
def consume (m : EventManager Time) (raises : Bool) (time : Time) : EventManager Time :=
  match m.phase with
  | .idle =>
      if m.stopped then { m with phase := .exited }
      else match m.dequeueEvent time with
        | (none, m) => m
        | (some event, m) => { m with phase := .sizing event }
  -- `__q.qsize()` is read once, so later puts wait for the next batch
  | .sizing first => { m with phase := .gathering [first] m.getQueueDepth }
  | .gathering batch 0 => m.handOut batch
  | .gathering batch (n + 1) =>
      match m.dequeueEvent time with
      | (none, m) => m.handOut batch
      | (some event, m) => { m with phase := .gathering (batch ++ [event]) n }
  | .handling batch [] =>
      { m with phase :=
          .counting ((getInternalEvents batch).length + (getContainerEvents batch).length) }
  -- an exception of a handler is caught and reported, and the loop goes on
  | .handling batch ((event, i) :: pending) =>
      { m.callHandler event i raises with phase := .handling batch pending }
  | .counting (n + 1) => m.countProcessed n
  | .counting 0 => m.reportDepth
  | .exited => m
  | .died _ => m

/-- An event is put, the consumer goes on, or the manager is stopped. -/
def step (m : EventManager Time) : ManagerStep Time → EventManager Time
  | .put event time => m.enqueue event time
  | .consume raises time => m.consume raises time
  | .stop => { m with stopped := true }

end EventManager

/-! ## Pulling Docker's stream -/

/-- What `__pull_events` leaves: the exception that ended its thread, if any, the event
manager, and the messages it has not read. -/
structure PullOutcome (Raw Time : Type) where
  result : Except PyError Unit
  manager : EventManager Time
  unread : List (Raw × Time)

namespace EventManager

variable {Time Raw : Type} (loads : Raw → Except PyError Json)

/-- `__put_event(event)` -/
def putEvent (m : EventManager Time) (message : Raw) (time : Time) :
    Except PyError (EventManager Time) :=
  match readMessage loads message with
  | .error e => .error e
  | .ok none => .ok m
  | .ok (some event) => .ok (m.enqueue event time)

/-- `__pull_events()`, over the messages of the stream with the times they are put at. -/
def pullEvents (m : EventManager Time) : List (Raw × Time) → PullOutcome Raw Time
  | [] => { result := .ok (), manager := m, unread := [] }
  | (message, time) :: rest =>
      match m.putEvent loads message time with
      -- no `try` around the loop: the thread ends with the message that raised
      | .error e => { result := .error e, manager := m, unread := rest }
      | .ok m => m.pullEvents rest

end EventManager

end TitusIsolate
