import Mathlib.Data.Finset.Basic
import TitusIsolate.Allocate.Builtin
import TitusIsolate.Cgroup.Manager

/-!
# The workload manager

`isolate` releases what is removed, builds the new workload map, asks the allocator,
writes the allocations that changed since the last response, and commits the new
CPU, the new map and the response. After the commit it still draws the two CPUs when
they differ and reports the event; an exception there makes the call return `False`
although the new state stands.
-/

namespace TitusIsolate

/-- `WorkloadManager`, by its attributes. -/
structure WorkloadManager where
  instanceId : Option String
  cpu : Cpu
  workloads : WorkloadMap
  lastResponse : Option AllocateResponse
  errorCount : Nat
  addedCount : Nat
  removedCount : Nat
  rebalancedCount : Nat

/-- What one call of `isolate` does. -/
structure IsolateOutcome where
  manager : WorkloadManager
  /-- The calls made on the cgroup manager, in order. -/
  cgroupCalls : List CgroupCall
  /-- The allocator's response, when it gave one. -/
  response : Option AllocateResponse
  /-- What the call returns. -/
  success : Bool

/-- One call of `isolate`, with the ambient state it runs in. -/
structure IsolateCall (Rng : Type) where
  ambient : Ambient Rng
  adds : List Workload
  removes : List WorkloadId

namespace WorkloadManager

/-- `WorkloadManager(cpu, cgroup_manager, cpu_allocator)` -/
def init (instanceId : Option String) (cpu : Cpu) : WorkloadManager where
  instanceId := instanceId
  cpu := cpu
  workloads := WorkloadMap.empty
  lastResponse := none
  errorCount := 0
  addedCount := 0
  removedCount := 0
  rebalancedCount := 0

/-- `__get_request_type(add_count, remove_count)` -/
def getRequestType (addCount removeCount : Nat) : String :=
  if addCount = 0 ∧ removeCount = 0 then "rebalance" else "isolate"

/-- `__get_request_metadata(request_type)` -/
def getRequestMetadata {Rng : Type} (wm : WorkloadManager) (ambient : Ambient Rng)
    (requestType : String) : List (String × Option String) :=
  [("type", some requestType), ("instance_id", wm.instanceId), ("region", ambient.region),
    ("environment", ambient.environment)]

/-- `__get_workload_allocation_dict(response)` -/
def getWorkloadAllocationDict :
    Option AllocateResponse → OrderedDict WorkloadId WorkloadAllocateResponse
  | none => OrderedDict.empty
  | some response =>
      response.workloadAllocations.foldl (fun d a => d.insert a.workloadId a) OrderedDict.empty

/-- The writes for one allocation, cpuset first. -/
def allocationCalls (a : WorkloadAllocateResponse) : List CgroupCall :=
  [.setCpuset a.workloadId a.threadIds,
   .setQuota a.workloadId a.cpuQuota,
   .setShares a.workloadId a.cpuShares,
   .setMemoryMigrate a.workloadId a.memoryMigrate,
   .setMemorySpreadPage a.workloadId a.memorySpreadPage,
   .setMemorySpreadSlab a.workloadId a.memorySpreadSlab]

/-- Whether `__apply_isolation` skips an allocation. -/
def skips (lastResponse : Option AllocateResponse) (a : WorkloadAllocateResponse) : Bool :=
  a.eq ((getWorkloadAllocationDict lastResponse).get? a.workloadId)

/-- `__apply_isolation(response)` -/
def applyIsolation (lastResponse : Option AllocateResponse) (response : AllocateResponse) :
    List CgroupCall :=
  response.workloadAllocations.flatMap
    (fun a => if skips lastResponse a then [] else allocationCalls a)

/-- The workload map a call asks the allocator to place. -/
def newWorkloads (wm : WorkloadManager) (adds : List Workload) (removes : List WorkloadId) :
    WorkloadMap :=
  (wm.workloads.popAll removes).putAll adds

/-- The request a call hands to the allocator. -/
def requestFor {Rng : Type} (wm : WorkloadManager) (call : IsolateCall Rng) : AllocateRequest where
  cpu := wm.cpu
  workloads := wm.newWorkloads call.adds call.removes
  metadata := wm.getRequestMetadata call.ambient
    (getRequestType call.adds.length call.removes.length)

/-- `__report_cpu_state(old_cpu, new_cpu)`, made when the CPU changed. -/
def reportCpuState (oldCpu newCpu : Cpu) : Except PyError Unit :=
  if oldCpu.eq newCpu then .ok ()
  else (visualizeCpuComparison oldCpu newCpu).map (fun _ => ())

/-- What is left of a call once the state is committed: drawing and reporting. -/
def reportCommit {Rng : Type}
    (reportCpuEvent : Ambient Rng → AllocateRequest → AllocateResponse → Except PyError Unit)
    (ambient : Ambient Rng) (oldCpu : Cpu) (request : AllocateRequest)
    (response : AllocateResponse) : Except PyError Unit :=
  match reportCpuState oldCpu response.cpu with
  | .error e => .error e
  | .ok () => reportCpuEvent ambient request response

/-- The manager after `__update_state` has stored the response. -/
def commit (wm : WorkloadManager) (response : AllocateResponse) (workloads : WorkloadMap) :
    WorkloadManager :=
  { wm with cpu := response.cpu, workloads := workloads, lastResponse := some response }

/-- The counters of a call that went through. -/
def countSuccess (wm : WorkloadManager) (addCount removeCount : Nat) : WorkloadManager :=
  { wm with
    addedCount := wm.addedCount + addCount
    removedCount := wm.removedCount + removeCount
    rebalancedCount :=
      if addCount = 0 ∧ removeCount = 0 then wm.rebalancedCount + 1 else wm.rebalancedCount }

/-- The counter of a call that raised. -/
def countError (wm : WorkloadManager) : WorkloadManager :=
  { wm with errorCount := wm.errorCount + 1 }

variable {Rng : Type} (allocator : CpuAllocator Rng)
  (reportCpuEvent : Ambient Rng → AllocateRequest → AllocateResponse → Except PyError Unit)

/-- `isolate(adds, removes)` -/
def isolate (wm : WorkloadManager) (call : IsolateCall Rng) : IsolateOutcome :=
  -- removed workloads are released before the allocator is asked, so also when it raises
  let releases := call.removes.map CgroupCall.releaseContainer
  let request := wm.requestFor call
  let outcome := allocator.isolate call.ambient request
  match outcome.result with
  | .error _ =>
      { manager := wm.countError, cgroupCalls := releases, response := none, success := false }
  | .ok response =>
      let calls := releases ++ applyIsolation wm.lastResponse response
      -- the state is committed here: what raises below is counted, not undone
      let committed := wm.commit response request.workloads
      match reportCommit reportCpuEvent call.ambient wm.cpu outcome.request response with
      | .error _ =>
          { manager := committed.countError, cgroupCalls := calls, response := some response
            success := false }
      | .ok () =>
          { manager := committed.countSuccess call.adds.length call.removes.length
            cgroupCalls := calls, response := some response, success := true }

/-- The manager after one call of `isolate`. -/
def step (wm : WorkloadManager) (call : IsolateCall Rng) : WorkloadManager :=
  (wm.isolate allocator reportCpuEvent call).manager

/-- `is_isolated(workload_id)`, given the cgroup manager's isolated ids. -/
def isIsolated (isolatedWorkloadIds : Finset WorkloadId) (workloadId : WorkloadId) : Bool :=
  if allocator.isNoop then true else decide (workloadId ∈ isolatedWorkloadIds)

end WorkloadManager

end TitusIsolate
