import TitusIsolate.Event.Handlers

/-!
# Starting up beside Docker

The agent starts while containers run, start and die. It opens Docker's stream of events
first; then it lists the containers that run and isolates their workloads; and only then does
it start the threads that pull the stream and process events. What Docker says in between
waits in the stream.
-/

namespace TitusIsolate

variable {Rng Raw Time : Type}

/-- Docker with the agent beside it. -/
structure DockerHost (Raw Time : Type) where
  /-- The Titus containers that run. -/
  running : List WorkloadId
  /-- What else Docker lists: containers without a task id. -/
  bystanders : List WorkloadId
  /-- The messages that wait in the stream, once it is open. -/
  stream : Option (List Raw)
  /-- The running containers were isolated. -/
  isolated : Bool
  /-- `__started` of the event manager. -/
  started : Bool
  agent : Agent Raw Time

/-- What can happen next. -/
inductive DockerStep (Rng Raw Time : Type) where
  /-- Docker has something to say, whether or not the stream is open. -/
  | docker (raw : Raw)
  /-- `EventManager(docker.from_env().events(), event_handlers)` -/
  | openStream
  /-- `init()` isolates what runs; this is what it finds. -/
  | isolateCurrent (call : HandlerCall Rng)
  /-- `start_processing_events()` -/
  | startProcessing
  /-- The pulling thread takes the next message. -/
  | pull (time : Time)
  | schedule (action : InternalAction) (time : Time)
  | consume (time : Time) (call : HandlerCall Rng)
  | stop

section

variable (parseQuantity : String → Except PyError Decimal)

/-- The loop of `get_current_workloads`: a container whose workload is not found is skipped,
also where the search raises. -/
def currentWorkloads (call : HandlerCall Rng) : List WorkloadId → Nat → List Workload
  | [], _ => []
  | name :: names, looks =>
      match getWorkload parseQuantity call name looks with
      | .error _ => currentWorkloads call names looks
      | .ok (none, looks) => currentWorkloads call names looks
      | .ok (some w, looks) => w :: currentWorkloads call names looks

/-- `get_current_workloads(docker_client)`, given the names of the containers listed. -/
def getCurrentWorkloads (call : HandlerCall Rng) (names : List WorkloadId) : List Workload :=
  currentWorkloads parseQuantity call names 0

namespace DockerHost

/-- What runs after a message: a start or a die of a Titus container changes it. -/
def runningAfter (running : List WorkloadId) : Except PyError (Option Event) → List WorkloadId
  | .ok (some (.container e)) =>
      match e.action with
      | .start => running.insert e.getContainerName
      | .die => running.filter (fun x => x ≠ e.getContainerName)
  | .ok (some (.internal _)) => running
  | .ok none => running
  | .error _ => running

/-- Before the event manager is there. -/
def init (running bystanders : List WorkloadId) (instanceId : Option String) (cpu : Cpu)
    (reg : EventRegistry Time) : DockerHost Raw Time where
  running := running
  bystanders := bystanders
  stream := none
  isolated := false
  started := false
  agent := Agent.init (WorkloadManager.init instanceId cpu) reg

variable (allocator : CpuAllocator Rng)
  (reportCpuEvent : Ambient Rng → AllocateRequest → AllocateResponse → Except PyError Unit)

/-- The call that `init()` makes: the listing is one answer of Docker's. -/
def currentCall (d : DockerHost Raw Time) (call : HandlerCall Rng) : IsolateCall Rng where
  ambient := call.ambient
  adds := getCurrentWorkloads parseQuantity call (d.running ++ d.bystanders)
  removes := []

/-- The workload manager after `init()` has isolated what runs. -/
def afterInit (d : DockerHost Raw Time) (call : HandlerCall Rng) : WorkloadManager :=
  (d.agent.workloadManager.isolate allocator reportCpuEvent
    (d.currentCall parseQuantity call)).manager

variable [Sub Time] (loads : Raw → Except PyError Json)

/-- A step that is not yet to be taken changes nothing. -/
def step (d : DockerHost Raw Time) : DockerStep Rng Raw Time → DockerHost Raw Time
  | .docker raw =>
      { d with
        running := runningAfter d.running (readMessage loads raw)
        stream := d.stream.map (fun messages => messages ++ [raw]) }
  | .openStream =>
      match d.stream with
      | none => { d with stream := some [] }
      | some _ => d
  | .isolateCurrent call =>
      if d.stream.isSome && !d.isolated then
        { d with
          isolated := true
          agent :=
            { d.agent with
              workloadManager := d.afterInit parseQuantity allocator reportCpuEvent call } }
      else d
  | .startProcessing => if d.isolated then { d with started := true } else d
  | .pull time =>
      match d.stream with
      | none => d
      | some [] => d
      | some (raw :: messages) =>
          if d.started && d.agent.pulling then
            { d with stream := some messages, agent := d.agent.pull loads raw time }
          else d
  | .schedule action time =>
      if d.stream.isSome then
        { d with
          agent :=
            d.agent.step parseQuantity allocator reportCpuEvent loads (.schedule action time) }
      else d
  | .consume time call =>
      if d.started then
        { d with agent := d.agent.consume parseQuantity allocator reportCpuEvent time call }
      else d
  | .stop => { d with agent := d.agent.step parseQuantity allocator reportCpuEvent loads .stop }

end DockerHost

end

end TitusIsolate
