import TitusIsolate.Event.Manager
import TitusIsolate.Pod.Requests

/-!
# The event handlers, and the agent they make up

Docker's messages are pulled and put on the event manager's queue, the scheduler puts its
own events there, and the consumer hands each batch to the four handlers. Two of them call
the workload manager. What a handler raises is caught by the consumer: the event is lost to
that handler.

The workload of a started container is made from its pod, which may appear only a while
after the container, so the pod manager is asked again and again.
-/

namespace TitusIsolate

variable {Rng Raw Time : Type}

/-- `__managers` of `utils.py`, which lists what the managers are when the module is loaded. -/
def managersAtImport : List (Option Unit) := [none, none, none, none, none, none]

/-- `managers_are_initialized()` -/
def managersAreInitialized : Bool :=
  decide ((managersAtImport.filter (fun m => m.isNone)).length > 0)

/-- What a call of a handler finds outside. -/
structure HandlerCall (Rng : Type) where
  ambient : Ambient Rng
  /-- The properties of the retries, which are read as numbers: how many looks there are. -/
  retryCount : Except PyError Int
  /-- The pod manager at each look the call takes at it. -/
  look : Nat → PodManager PodBody
  /-- What a handler that leaves the workload manager alone comes to. -/
  elsewhere : Except PyError Unit

section

variable (parseQuantity : String → Except PyError Decimal)

/-- The loop of `get_workload`: the pod, and how many looks have been taken by then. A pod
that is there but makes no workload is not looked for again. -/
def tryGetPod (look : Nat → PodManager PodBody) (identifier : WorkloadId) :
    Nat → Nat → Option Workload × Nat
  | 0, looks => (none, looks)
  | attempts + 1, looks =>
      match (look looks).getPod identifier with
      | some pod => ((kubernetesWorkload parseQuantity pod).toOption, looks + 1)
      | none => tryGetPod look identifier attempts (looks + 1)

/-- `get_workload(identifier)` -/
def getWorkload (call : HandlerCall Rng) (identifier : WorkloadId) (looks : Nat) :
    Except PyError (Option Workload × Nat) :=
  if !managersAreInitialized then .ok (none, looks)
  else
    match call.retryCount with
    | .error e => .error e
    | .ok retryCount => .ok (tryGetPod parseQuantity call.look identifier retryCount.toNat looks)

/-- The workloads `handle` adds, start event by start event. -/
def startedWorkloads (call : HandlerCall Rng) :
    List ContainerEvent → Nat → Except PyError (List Workload)
  | [], _ => .ok []
  | start :: starts, looks =>
      if start.getContainerName = "" then startedWorkloads call starts looks
      else
        match getWorkload parseQuantity call start.getContainerName looks with
        | .error e => .error e
        | .ok (none, looks) => startedWorkloads call starts looks
        | .ok (some w, looks) => (startedWorkloads call starts looks).map (fun ws => w :: ws)

variable (allocator : CpuAllocator Rng)
  (reportCpuEvent : Ambient Rng → AllocateRequest → AllocateResponse → Except PyError Unit)

/-- `ContainerBatchEventHandler.handle(event)` -/
def handleStartsAndDies (wm : WorkloadManager) (call : HandlerCall Rng) :
    HandlerEvent → Except PyError WorkloadManager
  | .internal _ => .ok wm
  | .containerBatch event =>
      match startedWorkloads parseQuantity call event.starts 0 with
      | .error e => .error e
      | .ok adds =>
          .ok (wm.isolate allocator reportCpuEvent
            { ambient := call.ambient, adds := adds, removes := batchRemoves event.dies }).manager

/-- `RebalanceEventHandler.handle(event)` -/
def handleRebalance (wm : WorkloadManager) (call : HandlerCall Rng) :
    HandlerEvent → Except PyError WorkloadManager
  | .internal .rebalance =>
      .ok (wm.isolate allocator reportCpuEvent
        { ambient := call.ambient, adds := [], removes := [] }).manager
  | .internal .reconcile => .ok wm
  | .internal .predictUsage => .ok wm
  | .containerBatch _ => .ok wm

/-- `ReconcileEventHandler.handle(event)`: the reconciler is given a copy of the CPU. -/
def handleReconcile (wm : WorkloadManager) (call : HandlerCall Rng) :
    HandlerEvent → Except PyError WorkloadManager
  | .internal .reconcile => call.elsewhere.map (fun _ => wm)
  | .internal .rebalance => .ok wm
  | .internal .predictUsage => .ok wm
  | .containerBatch _ => .ok wm

/-- `ResourceUsagePredictionHandler.handle(event)` starts a thread for every event, and what
that thread raises stays there. -/
def handlePredictUsage (wm : WorkloadManager) (call : HandlerCall Rng) :
    HandlerEvent → Except PyError WorkloadManager :=
  fun _ => call.elsewhere.map (fun _ => wm)

/-- The handlers as the agent lists them. -/
def eventHandlers : List String :=
  ["ContainerBatchEventHandler", "RebalanceEventHandler", "ReconcileEventHandler",
    "ResourceUsagePredictionHandler"]

/-- The handler with this index handles the event. -/
def handleEventAt (wm : WorkloadManager) (call : HandlerCall Rng) (event : HandlerEvent) :
    Nat → Except PyError WorkloadManager
  | 0 => handleStartsAndDies parseQuantity allocator reportCpuEvent wm call event
  | 1 => handleRebalance allocator reportCpuEvent wm call event
  | 2 => handleReconcile wm call event
  | 3 => handlePredictUsage wm call event
  | _ => .ok wm

/-! ## The agent -/

/-- The event manager, with the thread that pulls Docker's stream, and the workload manager. -/
structure Agent (Raw Time : Type) where
  eventManager : EventManager Time
  workloadManager : WorkloadManager
  /-- The pulling thread has not ended. -/
  pulling : Bool
  /-- History: the messages that were pulled. -/
  pulled : List Raw

/-- What can happen next. -/
inductive AgentStep (Rng Raw Time : Type) where
  /-- Docker sends a message. -/
  | message (raw : Raw) (time : Time)
  /-- The scheduler puts one of its events. -/
  | schedule (action : InternalAction) (time : Time)
  /-- The consumer goes on; should it call a handler, this is what the call finds. -/
  | consume (time : Time) (call : HandlerCall Rng)
  /-- `stop_processing_events` sets `__stopped`. -/
  | stop

namespace Agent

/-- The agent once the running containers are isolated and events are processed. -/
def init (wm : WorkloadManager) (reg : EventRegistry Time) : Agent Raw Time where
  eventManager := EventManager.init eventHandlers (some reg)
  workloadManager := wm
  pulling := true
  pulled := []

variable [Sub Time] (loads : Raw → Except PyError Json)

/-- One round of `__pull_events`. -/
def pull (a : Agent Raw Time) (raw : Raw) (time : Time) : Agent Raw Time :=
  match a.eventManager.putEvent loads raw time with
  | .error _ => { a with pulling := false, pulled := a.pulled ++ [raw] }
  | .ok m => { a with eventManager := m, pulled := a.pulled ++ [raw] }

/-- The consumer's next step. Where it calls a handler, the handler runs. -/
def consume (a : Agent Raw Time) (time : Time) (call : HandlerCall Rng) : Agent Raw Time :=
  match a.eventManager.phase with
  | .handling _ ((event, i) :: _) =>
      match handleEventAt parseQuantity allocator reportCpuEvent a.workloadManager call event i with
      | .error _ => { a with eventManager := a.eventManager.consume true time }
      | .ok wm =>
          { a with eventManager := a.eventManager.consume false time, workloadManager := wm }
  | _ => { a with eventManager := a.eventManager.consume false time }

/-- One step of the agent. A message is read only while the puller is at its stream. -/
def step (a : Agent Raw Time) : AgentStep Rng Raw Time → Agent Raw Time
  | .message raw time => if a.pulling then a.pull loads raw time else a
  | .schedule action time =>
      { a with eventManager := a.eventManager.enqueue (.internal action) time }
  | .consume time call => a.consume parseQuantity allocator reportCpuEvent time call
  | .stop => { a with eventManager := { a.eventManager with stopped := true } }

end Agent

end

end TitusIsolate
