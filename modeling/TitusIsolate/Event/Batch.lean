import TitusIsolate.Isolate.WorkloadManager

/-!
# Event batches

The event manager takes whatever is on its queue as one batch. The start and die
events of a batch are regrouped into a single event that lists the starts and the
dies apart, which the container batch handler turns into one `isolate`; the internal
events follow one by one.
-/

namespace TitusIsolate

/-- The docker events that are handled. -/
inductive ContainerAction where
  | start
  | die
  deriving DecidableEq, Repr

/-- The events the service sends itself. -/
inductive InternalAction where
  | rebalance
  | reconcile
  | predictUsage
  deriving DecidableEq, Repr

/-- A start or die event, with the attributes of its actor. -/
structure ContainerEvent where
  action : ContainerAction
  attributes : OrderedDict String String

/-- An event on the queue. -/
inductive Event where
  | container (e : ContainerEvent)
  | internal (action : InternalAction)

/-- `get_container_name(event)` -/
def ContainerEvent.getContainerName (e : ContainerEvent) : WorkloadId :=
  (e.attributes.get? "name").getD ""

/-- `__get_container_events(events)` -/
def getContainerEvents (events : List Event) : List ContainerEvent :=
  events.filterMap (fun
    | .container e => some e
    | .internal _ => none)

/-- `__get_internal_events(events)` -/
def getInternalEvents (events : List Event) : List InternalAction :=
  events.filterMap (fun
    | .container _ => none
    | .internal a => some a)

/-- The event with action `container_batch`. -/
structure ContainerBatchEvent where
  starts : List ContainerEvent
  dies : List ContainerEvent

/-- `__get_container_batch_event(container_events)` -/
def getContainerBatchEvent (containerEvents : List ContainerEvent) : ContainerBatchEvent where
  starts := containerEvents.filter (fun e => e.action = .start)
  dies := containerEvents.filter (fun e => e.action = .die)

/-- A batch as it is processed: its events, the ambient state, and what
`get_workload` answers for a container name. -/
structure Delivery (Rng : Type) where
  events : List Event
  ambient : Ambient Rng
  getWorkload : WorkloadId → Option Workload

variable {Rng : Type} (allocator : CpuAllocator Rng)
  (reportCpuEvent : Ambient Rng → AllocateRequest → AllocateResponse → Except PyError Unit)

/-- The workloads `handle` adds for the start events. -/
def batchAdds (getWorkload : WorkloadId → Option Workload) (starts : List ContainerEvent) :
    List Workload :=
  starts.filterMap (fun e =>
    if e.getContainerName = "" then none else getWorkload e.getContainerName)

/-- The ids `handle` removes for the die events. -/
def batchRemoves (dies : List ContainerEvent) : List WorkloadId :=
  dies.map ContainerEvent.getContainerName

/-- `ContainerBatchEventHandler.handle(event)` -/
def handleContainerBatch (wm : WorkloadManager) (d : Delivery Rng) (event : ContainerBatchEvent) :
    WorkloadManager :=
  (wm.isolate allocator reportCpuEvent
    { ambient := d.ambient
      adds := batchAdds d.getWorkload event.starts
      removes := batchRemoves event.dies }).manager

/-- `RebalanceEventHandler.handle(event)`; no other handler of an internal event
touches the workload manager. -/
def handleInternal (wm : WorkloadManager) (d : Delivery Rng) : InternalAction → WorkloadManager
  | .rebalance =>
      (wm.isolate allocator reportCpuEvent
        { ambient := d.ambient, adds := [], removes := [] }).manager
  | .reconcile => wm
  | .predictUsage => wm

/-- One round of `__process_events`. -/
def processBatch (wm : WorkloadManager) (d : Delivery Rng) : WorkloadManager :=
  let internalEvents := getInternalEvents d.events
  let containerEvents := getContainerEvents d.events
  let wm :=
    if containerEvents.length > 0 then
      handleContainerBatch allocator reportCpuEvent wm d (getContainerBatchEvent containerEvents)
    else wm
  internalEvents.foldl (fun wm a => handleInternal allocator reportCpuEvent wm d a) wm

/-- One round after another. -/
def processBatches (wm : WorkloadManager) (ds : List (Delivery Rng)) : WorkloadManager :=
  ds.foldl (processBatch allocator reportCpuEvent) wm

end TitusIsolate
