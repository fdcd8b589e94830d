import TitusIsolate.Event.Startup
import TitusIsolate.Isolate.Host

/-!
# The machine

Docker, the agent's threads and the cgroup files on one machine. `isolate` is called by
`init()`, which has a thread of its own, and by two of the handlers on the consumer's. The
calls it makes on the cgroup manager come one by one, and its caller waits for the last of
them; Docker, the thread that pulls its stream, the scheduler and the writer threads do not.
-/

namespace TitusIsolate

variable {Rng Raw Time : Type}

/-- Who has called `isolate`. -/
inductive IsolateCaller (Rng Time : Type) where
  /-- `init()` -/
  | init
  /-- A handler the consumer called, with what it found. -/
  | handler (time : Time) (call : HandlerCall Rng)

/-- A call of `isolate` under way. -/
structure IsolateUnderWay (Rng Time : Type) where
  /-- The cgroup calls still to be made. -/
  cgroupCalls : List CgroupCall
  /-- The workload manager there will be. -/
  manager : WorkloadManager
  caller : IsolateCaller Rng Time

/-- The agent with its container runtime, and the files its cgroup manager writes. -/
structure Machine (Rng Raw Time : Type) where
  dockerHost : DockerHost Raw Time
  world : FileWorld
  /-- The call of `isolate` that holds the lock. -/
  inCall : Option (IsolateUnderWay Rng Time)

/-- What can happen next. -/
inductive MachineStep (Rng Raw Time : Type) where
  /-- Docker or a thread of the agent goes on. -/
  | agent (e : DockerStep Rng Raw Time)
  /-- The call of `isolate` makes its next cgroup call, or returns. -/
  | advance (ok : Bool)
  /-- A writer thread ends. -/
  | complete (i : Nat) (ok : Bool)

/-- The step comes before or after a call of `isolate` on the thread that makes it. While a call
is under way no such step is to be taken: events are processed once `init()` is through, and
by then all that it and its caller start has been started. -/
def DockerStep.waits : DockerStep Rng Raw Time → Bool
  | .openStream => true
  | .isolateCurrent _ => true
  | .startProcessing => true
  | .consume _ _ => true
  | .docker _ => false
  | .pull _ => false
  | .schedule _ _ => false
  | .stop => false

section

variable (parseQuantity : String → Except PyError Decimal)

/-- The call of `isolate` that the handler with this index makes, unless it raises first. -/
def isolateCallAt (call : HandlerCall Rng) : HandlerEvent → Nat → Option (IsolateCall Rng)
  | .containerBatch event, 0 =>
      (startedWorkloads parseQuantity call event.starts 0).toOption.map (fun adds =>
        { ambient := call.ambient, adds := adds, removes := batchRemoves event.dies })
  | .internal .rebalance, 1 => some { ambient := call.ambient, adds := [], removes := [] }
  | _, _ => none

namespace DockerHost

/-- The call of `isolate` that a step comes to, if it comes to one, and who makes it. -/
def isolateCall (d : DockerHost Raw Time) :
    DockerStep Rng Raw Time → Option (IsolateCall Rng × IsolateCaller Rng Time)
  | .isolateCurrent call =>
      if d.stream.isSome && !d.isolated then some (d.currentCall parseQuantity call, .init)
      else none
  | .consume time call =>
      if d.started then
        match d.agent.eventManager.phase with
        | .handling _ ((event, i) :: _) =>
            (isolateCallAt parseQuantity call event i).map (fun c => (c, .handler time call))
        | _ => none
      else none
  | _ => none

/-- `isolate` has returned, and its caller goes on. -/
def resume [Sub Time] (d : DockerHost Raw Time) (manager : WorkloadManager) :
    IsolateCaller Rng Time → DockerHost Raw Time
  | .init =>
      { d with isolated := true, agent := { d.agent with workloadManager := manager } }
  | .handler time _ =>
      { d with
        agent :=
          { d.agent with
            eventManager := d.agent.eventManager.consume false time
            workloadManager := manager } }

end DockerHost

namespace Machine

/-- The machine when the agent is started, with the containers that run. -/
def init (running bystanders : List WorkloadId) (instanceId : Option String) (cpu : Cpu)
    (reg : EventRegistry Time) (files : Files) : Machine Rng Raw Time where
  dockerHost := DockerHost.init running bystanders instanceId cpu reg
  world := FileWorld.init files
  inCall := none

variable (allocator : CpuAllocator Rng)
  (reportCpuEvent : Ambient Rng → AllocateRequest → AllocateResponse → Except PyError Unit)
  [Sub Time] (loads : Raw → Except PyError Json)

/-- One step. While a call of `isolate` holds the lock, who needs it waits. -/
def step (m : Machine Rng Raw Time) : MachineStep Rng Raw Time → Machine Rng Raw Time
  | .agent e =>
      match m.inCall with
      | some _ =>
          if e.waits then m
          else
            { m with
              dockerHost := m.dockerHost.step parseQuantity allocator reportCpuEvent loads e }
      | none =>
          match m.dockerHost.isolateCall parseQuantity e with
          | none =>
              { m with
                dockerHost := m.dockerHost.step parseQuantity allocator reportCpuEvent loads e }
          | some (call, caller) =>
              let outcome :=
                m.dockerHost.agent.workloadManager.isolate allocator reportCpuEvent call
              { m with inCall := some ⟨outcome.cgroupCalls, outcome.manager, caller⟩ }
  | .advance ok =>
      match m.inCall with
      | none => m
      | some ⟨[], manager, caller⟩ =>
          { m with dockerHost := m.dockerHost.resume manager caller, inCall := none }
      | some ⟨c :: cs, manager, caller⟩ =>
          { m with world := m.world.perform c ok, inCall := some ⟨cs, manager, caller⟩ }
  | .complete i ok => { m with world := m.world.complete i ok }

end Machine

end

end TitusIsolate
