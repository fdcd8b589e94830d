import TitusIsolate.Model.Visualize

/-!
# Requests, responses and allocators

An allocator is handed a request (the CPU as it is and the workloads that are to
run) and answers with a CPU and one allocation for each workload that holds a
thread on it, or raises. It works on the request's own CPU in place, so the request
as the allocator left it is part of what a call yields, also when it raised.

What a call reads from the rest of the process (configuration, the event queue's
depth, the environment, the random number generator) is its ambient state.
-/

namespace TitusIsolate

/-- The three memory settings of a cpuset cgroup. -/
structure MemoryFlags where
  memoryMigrate : Bool
  memorySpreadPage : Bool
  memorySpreadSlab : Bool
  deriving DecidableEq, Repr

/-- What a call reads from the rest of the process. -/
structure Ambient (Rng : Type) where
  /-- `config_manager.get_region()` -/
  region : Option String
  /-- `config_manager.get_environment()` -/
  environment : Option String
  /-- The cached answers to `TITUS_ISOLATE_MEMORY_MIGRATE` and its two siblings. -/
  memoryFlags : MemoryFlags
  /-- `os.environ.get(TITUS_TASK_ID)` -/
  titusTaskId : Option String
  /-- The event manager's queue depth, when there is an event manager. -/
  queueDepth : Option Nat
  /-- The state of the `random` module, or whatever else an allocator carries. -/
  rng : Rng

/-- A process with nothing configured and no event manager. -/
def Ambient.unset {Rng : Type} (rng : Rng) : Ambient Rng where
  region := none
  environment := none
  memoryFlags := ⟨false, false, false⟩
  titusTaskId := none
  queueDepth := none
  rng := rng

/-! ## The allocation of one workload -/

/-- What an allocator answers for one workload, by its attributes. -/
structure WorkloadAllocateResponse where
  workloadId : WorkloadId
  threadIds : List Nat
  cpuShares : Int
  cpuQuota : Int
  memoryMigrate : Bool
  memorySpreadPage : Bool
  memorySpreadSlab : Bool
  deriving DecidableEq, Repr

/-- `__eq__`: thread ids are compared as sets, and nothing equals `None`. -/
def WorkloadAllocateResponse.eq (a : WorkloadAllocateResponse) :
    Option WorkloadAllocateResponse → Bool
  | none => false
  | some other =>
      other.workloadId == a.workloadId
        && other.cpuQuota == a.cpuQuota
        && other.cpuShares == a.cpuShares
        && sameSet (· == ·) other.threadIds a.threadIds
        && other.memoryMigrate == a.memoryMigrate
        && other.memorySpreadPage == a.memorySpreadPage
        && other.memorySpreadSlab == a.memorySpreadSlab

/-- `DEFAULT_SHARES_SCALE` -/
def defaultSharesScale : Int := 100

/-- `DEFAULT_QUOTA_SCALE` -/
def defaultQuotaScale : Int := 100000

/-- `get_cpu_quota(workload)` -/
def getCpuQuota (w : Workload) : Int := w.threadCount * defaultQuotaScale

/-- `get_cpu_shares(workload)` -/
def getCpuShares (w : Workload) : Int := w.threadCount * defaultSharesScale

/-- `get_workload_response(workload, cpu)`: `None` for a workload without a thread. -/
def getWorkloadResponse (flags : MemoryFlags) (w : Workload) (cpu : Cpu) :
    Option WorkloadAllocateResponse :=
  let threadIds := Update.getThreads cpu w.taskId
  if threadIds.length < 1 then none
  else some
    { workloadId := w.taskId
      threadIds := threadIds
      cpuShares := getCpuShares w
      cpuQuota := getCpuQuota w
      memoryMigrate := flags.memoryMigrate
      memorySpreadPage := flags.memorySpreadPage
      memorySpreadSlab := flags.memorySpreadSlab }

/-- `get_workload_allocations(cpu, workloads)` -/
def getWorkloadAllocations (flags : MemoryFlags) (cpu : Cpu) (workloads : List Workload) :
    List WorkloadAllocateResponse :=
  workloads.filterMap (fun w => getWorkloadResponse flags w cpu)

/-! ## Requests and responses -/

/-- `AllocateRequest`, by its attributes. A metadata value may be `None`. -/
structure AllocateRequest where
  cpu : Cpu
  workloads : WorkloadMap
  metadata : List (String × Option String)

/-- The values of the metadata are texts, unless said otherwise. -/
structure AllocateResponse (V : Type := String) where
  cpu : Cpu
  workloadAllocations : List WorkloadAllocateResponse
  metadata : OrderedDict String V

/-- `CPU_ALLOCATOR` -/
def cpuAllocatorKey : String := "cpu_allocator"

/-- `ALLOCATOR_SERVICE_TASK_ID` -/
def allocatorServiceTaskIdKey : String := "alloc_task_id"

/-- `UNKNOWN_ALLOCATOR_SERVICE_TASK_ID` -/
def unknownAllocatorServiceTaskId : String := "unknown_alloc_task_id"

/-- `AllocateResponse(cpu, workload_allocations, cpu_allocator_name, metadata)` -/
def allocateResponse {Rng : Type} (ambient : Ambient Rng) (cpu : Cpu)
    (workloadAllocations : List WorkloadAllocateResponse) (cpuAllocatorName : String)
    (metadata : OrderedDict String String) : AllocateResponse :=
  let metadata := metadata.insert cpuAllocatorKey cpuAllocatorName
  let metadata :=
    if allocatorServiceTaskIdKey ∈ metadata.keys then metadata
    else metadata.insert allocatorServiceTaskIdKey
      (ambient.titusTaskId.getD unknownAllocatorServiceTaskId)
  { cpu, workloadAllocations, metadata }

/-! ## Allocators -/

/-- What one call of `isolate` does: the request as the allocator left it, the
random state afterwards, and the response or the exception. -/
structure AllocateOutcome (Rng : Type) where
  request : AllocateRequest
  rng : Rng
  result : Except PyError AllocateResponse

/-- An allocator: its name, and `isolate`, which may mutate the request and draw random numbers. -/
structure CpuAllocator (Rng : Type) where
  getName : String
  /-- `isinstance(self, NoopCpuAllocator)` -/
  isNoop : Bool
  isolate : Ambient Rng → AllocateRequest → AllocateOutcome Rng

/-- `random.shuffle`: some permutation of the list, picked by the generator's state. -/
structure RandomSource (Rng : Type) where
  shuffle : Rng → List Nat → List Nat × Rng
  perm : ∀ r xs, (shuffle r xs).1.Perm xs

/-- A shuffle that reverses. -/
def RandomSource.reversing : RandomSource Unit where
  shuffle _ xs := (xs.reverse, ())
  perm _ xs := List.reverse_perm xs

/-! ## Allocations, read back -/

@[simp] theorem allocateResponse_cpu {Rng : Type} (ambient : Ambient Rng) (cpu : Cpu)
    (allocs : List WorkloadAllocateResponse) (name : String) (metadata : OrderedDict String String) :
    (allocateResponse ambient cpu allocs name metadata).cpu = cpu := rfl

@[simp] theorem allocateResponse_workloadAllocations {Rng : Type} (ambient : Ambient Rng)
    (cpu : Cpu) (allocs : List WorkloadAllocateResponse) (name : String)
    (metadata : OrderedDict String String) :
    (allocateResponse ambient cpu allocs name metadata).workloadAllocations = allocs := rfl

/-- The allocation of a workload that holds a thread. -/
def allocationOf (flags : MemoryFlags) (cpu : Cpu) (w : Workload) : WorkloadAllocateResponse :=
  { workloadId := w.taskId
    threadIds := Update.getThreads cpu w.taskId
    cpuShares := getCpuShares w
    cpuQuota := getCpuQuota w
    memoryMigrate := flags.memoryMigrate
    memorySpreadPage := flags.memorySpreadPage
    memorySpreadSlab := flags.memorySpreadSlab }

theorem getWorkloadResponse_eq_some_iff {flags : MemoryFlags} {w : Workload} {cpu : Cpu}
    {a : WorkloadAllocateResponse} :
    getWorkloadResponse flags w cpu = some a ↔
      Update.getThreads cpu w.taskId ≠ [] ∧ a = allocationOf flags cpu w := by
  unfold getWorkloadResponse
  simp only [Nat.lt_one_iff, List.length_eq_zero_iff]
  by_cases h : Update.getThreads cpu w.taskId = []
  · simp [h]
  · simp only [h, if_false, Option.some.injEq, ne_eq, not_false_eq_true, true_and]
    exact eq_comm

/-- The allocations are those of the workloads that hold a thread, in order. -/
theorem getWorkloadAllocations_eq (flags : MemoryFlags) (cpu : Cpu) (ws : List Workload) :
    getWorkloadAllocations flags cpu ws
      = (ws.filter (fun w => Update.getThreads cpu w.taskId ≠ [])).map (allocationOf flags cpu) := by
  unfold getWorkloadAllocations
  induction ws with
  | nil => rfl
  | cons w ws ih =>
    by_cases h : Update.getThreads cpu w.taskId = []
    · have hnone : getWorkloadResponse flags w cpu = none := by
        simp [getWorkloadResponse, h]
      simp only [List.filterMap_cons, hnone, ih]
      simp [h]
    · have hsome : getWorkloadResponse flags w cpu = some (allocationOf flags cpu w) :=
        getWorkloadResponse_eq_some_iff.mpr ⟨h, rfl⟩
      simp only [List.filterMap_cons, hsome, ih]
      simp [h]

theorem mem_getWorkloadAllocations {flags : MemoryFlags} {cpu : Cpu} {ws : List Workload}
    {a : WorkloadAllocateResponse} :
    a ∈ getWorkloadAllocations flags cpu ws ↔
      ∃ w ∈ ws, Update.getThreads cpu w.taskId ≠ [] ∧ a = allocationOf flags cpu w := by
  unfold getWorkloadAllocations
  simp only [List.mem_filterMap, getWorkloadResponse_eq_some_iff]

end TitusIsolate
