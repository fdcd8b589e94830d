import TitusIsolate.Allocate.Allocator

/-!
# The built-in allocators

`Greedy` clears the CPU and places every workload from scratch, each on the
emptiest package and there on the emptiest cores, and raises when the CPU is full.
`Naive` keeps what is placed, drops what is no longer requested, and gives a new
workload random empty threads, and random claimed ones when there are not enough.
`Noop` answers with the CPU it was given. `Fallback` asks a primary allocator and
turns to a secondary one when the primary raises or the event queue is too deep.
-/

namespace TitusIsolate

/-! ## Greedy -/

namespace GreedyCpuAllocator

/-- Claim the first `n` empty threads: `get_empty_threads()[:n]`, claimed one by one. -/
def claimEmptyThreads (taskId : WorkloadId) : Nat → List Thread → List Thread
  | _, [] => []
  | 0, t :: ts => t :: ts
  | n + 1, t :: ts =>
      if t.isClaimed then t :: claimEmptyThreads taskId (n + 1) ts
      else t.claim taskId :: claimEmptyThreads taskId n ts

theorem claimEmptyThreads_ne_nil {taskId : WorkloadId} {n : Nat} {ts : List Thread}
    (h : ts ≠ []) : claimEmptyThreads taskId n ts ≠ [] := by
  cases ts with
  | nil => exact absurd rfl h
  | cons t ts =>
    cases n with
    | zero => simp [claimEmptyThreads]
    | succ n => unfold claimEmptyThreads; split <;> simp

/-- Claim the first `n` empty threads of a core. -/
def claimOnCore (taskId : WorkloadId) (n : Nat) (c : Core) : Core :=
  { c with
    threads := claimEmptyThreads taskId n c.threads
    nonempty := claimEmptyThreads_ne_nil c.nonempty }

/--
The `while` loop over the cores of one package. Yields the package and the number
of threads still to be placed. A round places at least one thread, so `fuel` rounds
are enough for `fuel` threads (`assignOnPackage_spec`).
-/
def assignOnPackage (taskId : WorkloadId) : Nat → Nat → Package → Package × Nat
  | 0, threadCount, package => (package, threadCount)
  | fuel + 1, threadCount, package =>
      if threadCount > 0 ∧ package.getEmptyThreads.length > 0 then
        let core := package.getEmptiestCore
        let emptyThreads := (package.cores.get core).getEmptyThreads.take threadCount
        assignOnPackage taskId fuel (threadCount - emptyThreads.length)
          (package.modifyCore core (claimOnCore taskId threadCount))
      else (package, threadCount)

/-- `"Failed to add workload: '{}', cpu is full: {}".format(task_id, cpu)` -/
def cpuFullError (taskId : WorkloadId) (cpu : Cpu) : PyError :=
  match cpu.str with
  | .error e => e
  | .ok s => .valueError ("Failed to add workload: '" ++ taskId ++ "', cpu is full: " ++ s)

/--
`__assign_threads(cpu, workload)`. The CPU is the one the call leaves behind, also
when it raises. Each recursive call has fewer threads to place, so `thread_count + 1`
calls are enough.
-/
def assignThreads : Nat → Workload → Cpu → Except PyError Unit × Cpu
  | 0, _, cpu => (.ok (), cpu)
  | fuel + 1, workload, cpu =>
      if workload.threadCount = 0 then (.ok (), cpu)
      else if cpu.isCpuFull then (.error (cpuFullError workload.taskId cpu), cpu)
      else
        let package := cpu.getEmptiestPackage
        let threadCount := workload.threadCount.toNat
        let placed := assignOnPackage workload.taskId threadCount threadCount
          (cpu.packages.get package)
        let cpu := cpu.modifyPackage package (fun _ => placed.1)
        -- a negative count skips the loop and is refused by the constructor
        let rest : Int := if workload.threadCount > 0 then placed.2 else workload.threadCount
        match legacyWorkload workload.taskId workload.jobId rest with
        | .error e => (.error e, cpu)
        | .ok workload => assignThreads fuel workload cpu

/-- `for task_id, workload in workloads.items(): self.__assign_threads(cpu, workload)` -/
def assignAll : List Workload → Cpu → Except PyError Unit × Cpu
  | [], cpu => (.ok (), cpu)
  | w :: ws, cpu =>
      match assignThreads (w.threadCount.toNat + 1) w cpu with
      | (.error e, cpu) => (.error e, cpu)
      | (.ok (), cpu) => assignAll ws cpu

end GreedyCpuAllocator

open GreedyCpuAllocator in
/-- `GreedyCpuAllocator`: from a cleared CPU, one workload after another. -/
def greedyCpuAllocator (Rng : Type) : CpuAllocator Rng where
  getName := "GreedyCpuAllocator"
  isNoop := false
  isolate ambient request :=
    match assignAll request.workloads.values request.cpu.clear with
    | (.error e, cpu) => { request := { request with cpu }, rng := ambient.rng, result := .error e }
    | (.ok (), cpu) =>
        { request := { request with cpu }
          rng := ambient.rng
          result := .ok (allocateResponse ambient cpu
            (getWorkloadAllocations ambient.memoryFlags cpu request.workloads.values)
            "GreedyCpuAllocator" OrderedDict.empty) }

/-! ## Naive -/

namespace NaiveCpuAllocator

variable {Rng : Type}

/-- Free every thread of the workloads the request does not mention. -/
def freeUnmentioned (workloads : WorkloadMap) (cpu : Cpu) : Cpu :=
  cpu.mapThreadsIdx (fun _ t =>
    (t.workloadIds.filter (fun w => w ∉ workloads.keys)).foldl Thread.free t)

/-- `cpu.get_empty_threads()`, as positions. -/
def emptyThreads (cpu : Cpu) : List Nat :=
  (cpu.getThreads.zipIdx.filter (fun e => !e.1.isClaimed)).map Prod.snd

/-- `cpu.get_claimed_threads()`, as positions. -/
def claimedThreads (cpu : Cpu) : List Nat :=
  (cpu.getThreads.zipIdx.filter (fun e => e.1.isClaimed)).map Prod.snd

/-- `_get_assign_threads(cpu, thread_count)` -/
def getAssignThreads (random : RandomSource Rng) (rng : Rng) (cpu : Cpu) (threadCount : Int) :
    List Nat × Rng :=
  let empty := emptyThreads cpu
  if empty.length ≥ threadCount then
    let shuffled := random.shuffle rng empty
    (sliceTo shuffled.1 threadCount, shuffled.2)
  else
    let shuffled := random.shuffle rng (claimedThreads cpu)
    (empty ++ sliceTo shuffled.1 (threadCount - empty.length), shuffled.2)

/-- `for thread in threads: thread.claim(task_id)` -/
def claimThreads (taskId : WorkloadId) (threads : List Nat) (cpu : Cpu) : Cpu :=
  cpu.mapThreadsIdx (fun i t => if i ∈ threads then t.claim taskId else t)

/-- The loop over the requested workloads; `isolated` was computed before it. -/
def placeAll (random : RandomSource Rng) (isolated : List WorkloadId) :
    List Workload → Cpu → Rng → Cpu × Rng
  | [], cpu, rng => (cpu, rng)
  | w :: ws, cpu, rng =>
      if w.taskId ∈ isolated then placeAll random isolated ws cpu rng
      else
        let threads := getAssignThreads random rng cpu w.threadCount
        placeAll random isolated ws (claimThreads w.taskId threads.1 cpu) threads.2

end NaiveCpuAllocator

open NaiveCpuAllocator in
/-- `NaiveCpuAllocator`: who is not placed yet is placed on shuffled threads, who is stays. -/
def naiveCpuAllocator {Rng : Type} (random : RandomSource Rng) : CpuAllocator Rng where
  getName := "NaiveCpuAllocator"
  isNoop := false
  isolate ambient request :=
    let cpu := freeUnmentioned request.workloads request.cpu
    let currentlyIsolated := cpu.getWorkloadIdsToThreadIds.keys
    let placed := placeAll random currentlyIsolated request.workloads.values cpu ambient.rng
    { request := { request with cpu := placed.1 }
      rng := placed.2
      result := .ok (allocateResponse ambient placed.1
        (getWorkloadAllocations ambient.memoryFlags placed.1 request.workloads.values)
        "NaiveCpuAllocator" OrderedDict.empty) }

/-! ## Noop -/

/-- `NoopCpuAllocator`: the CPU as it is, and no allocation. -/
def noopCpuAllocator (Rng : Type) : CpuAllocator Rng where
  getName := "NoopCpuAllocator"
  isNoop := true
  isolate ambient request :=
    { request := request
      rng := ambient.rng
      result := .ok (allocateResponse ambient request.cpu
        (getWorkloadAllocations ambient.memoryFlags request.cpu request.workloads.values)
        "NoopCpuAllocator" OrderedDict.empty) }

/-! ## Fallback -/

namespace FallbackCpuAllocator

/-- `__should_fallback_immediately()` -/
def shouldFallbackImmediately {Rng : Type} (fallbackQueueDepth : Int) (ambient : Ambient Rng) :
    Except PyError Unit :=
  match ambient.queueDepth with
  | none => .ok ()
  | some queueDepth =>
      if (queueDepth : Int) ≥ fallbackQueueDepth then
        .error (.exception ("Falling back due to excessive queue depth: " ++ toString queueDepth
          ++ " > " ++ toString fallbackQueueDepth))
      else .ok ()

end FallbackCpuAllocator

open FallbackCpuAllocator in
/-- `FallbackCpuAllocator`: the secondary is asked if the queue is deep or the
primary raises. -/
def fallbackCpuAllocator {Rng : Type} (fallbackQueueDepth : Int)
    (primary secondary : CpuAllocator Rng) : CpuAllocator Rng where
  getName := "FallbackCpuAllocator(" ++ primary.getName ++ "," ++ secondary.getName ++ ")"
  isNoop := false
  isolate ambient request :=
    match shouldFallbackImmediately fallbackQueueDepth ambient with
    | .error _ => secondary.isolate ambient request
    | .ok () =>
        let outcome := primary.isolate ambient request
        match outcome.result with
        | .ok _ => outcome
        -- the secondary is handed the request object as the primary left it
        | .error _ => secondary.isolate { ambient with rng := outcome.rng } outcome.request

/-- The classes `get_allocator` can build without a remote service. -/
inductive AllocatorKind where
  | greedy
  | naive
  | noop
  deriving DecidableEq, Repr

/-- `CPU_ALLOCATOR_NAME_TO_CLASS_MAP[allocator_str]()` -/
def AllocatorKind.build {Rng : Type} (random : RandomSource Rng) : AllocatorKind → CpuAllocator Rng
  | .greedy => greedyCpuAllocator Rng
  | .naive => naiveCpuAllocator random
  | .noop => noopCpuAllocator Rng

end TitusIsolate
