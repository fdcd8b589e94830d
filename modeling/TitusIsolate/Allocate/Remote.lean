import Mathlib.Algebra.Group.Nat.Defs
import TitusIsolate.Allocate.Allocator
import TitusIsolate.Model.Config

/-!
# The remote allocator's messages

`GrpcRemoteIsolationAllocator` describes the CPU to a service and reads a placement back.
On the wire a thread is numbered by its position in `get_threads()`. Of the CPU only what
is claimed is sent: a package lists the cores with a claimed thread, a core the claimed
threads. Numbers in the messages are 32 bits wide, and setting a field to more raises.
-/

namespace TitusIsolate

/-! ## Messages -/

namespace Pb

/-- The message `Thread`. -/
structure Thread where
  id : UInt32
  taskIds : List WorkloadId

/-- The message `Core`. -/
structure Core where
  id : UInt32
  threads : List Pb.Thread

/-- The message `Package`. -/
structure Package where
  id : UInt32
  numCores : UInt32
  cores : List Pb.Core

/-- The message `Layout`. -/
structure Layout where
  threadsPerCore : UInt32
  packages : List Pb.Package

/-- The message `InstanceContext`. -/
structure InstanceContext where
  instanceId : String
  stack : String
  cluster : String
  autoscaleGroup : String
  resourcePool : String
  instanceType : String

/-- The part of the request that `__build_base_req` fills in. -/
structure IsolationRequest where
  layout : Layout
  instanceContext : InstanceContext
  metadata : OrderedDict String String

/-- The message `CFSTunables`. -/
structure CFSTunables where
  quotaUs : Int32
  shares : UInt32

/-- The message `CpusetTunables`. -/
structure CpusetTunables where
  memoryMigrate : Bool
  memorySpreadPage : Bool
  memorySpreadSlab : Bool

/-- The message `Cpuset`: what the service assigns to one workload. -/
structure Cpuset where
  threadIds : List UInt32
  cfsTunables : CFSTunables
  cpusetTunables : CpusetTunables

/-- The part of the response that `__deser` reads. -/
structure IsolationResponse where
  cpusets : OrderedDict WorkloadId Cpuset

/-- Setting a `uint32` field. -/
def uint32 (n : Nat) : Except PyError UInt32 :=
  if h : n < 2 ^ 32 then .ok (UInt32.ofNatLT n h)
  else .error (.valueError ("Value out of range: " ++ toString n))

end Pb

/-! ## The allocator -/

/-- The attributes of the allocator that the requests and the answers go through. -/
structure GrpcRemoteIsolationAllocator where
  instanceCtx : Pb.InstanceContext
  /-- `get_cpu_from_env()` -/
  emptyCpu : Cpu
  metadata : OrderedDict String String

namespace GrpcRemoteIsolationAllocator

/-- `get_name()` -/
def getName : String := "GrpcRemoteIsolationAllocator"

/-- `SYS_CORE_IDS_KEY` -/
def sysCoreIdsKey : String := "SYS_CORE_IDS"

/-- `SYS_CORES_USAGE_KEY` -/
def sysCoresUsageKey : String := "SYS_CORES_USAGE"

/-- `SYS_CORES_HARD_ISOLATE_KEY` -/
def sysCoresHardIsolateKey : String := "SYS_CORES_HARD_ISOLATE"

/-- `__init_sys_cores_data(config_manager)`, given the three cached properties. -/
def initSysCoresData (sysCoreIds sysCoresUsage sysCoresHardIsolate : Option String) :
    OrderedDict String String :=
  let set (d : OrderedDict String String) (k : String) : Option String → OrderedDict String String
    | none => d
    | some v => d.insert k v
  set (set (set OrderedDict.empty sysCoreIdsKey sysCoreIds) sysCoresUsageKey sysCoresUsage)
    sysCoresHardIsolateKey sysCoresHardIsolate

/-- `__init__()`, given what the config manager and Kubernetes answer and how the machine is
counted. -/
def init (endpoint : Option String) (instanceCtx : Pb.InstanceContext)
    (packageCount coresPerPackage threadsPerCore : Nat)
    (sysCoreIds sysCoresUsage sysCoresHardIsolate : Option String) :
    Except PyError GrpcRemoteIsolationAllocator :=
  match endpoint with
  | none => .error (.exception "Could not get remote allocator endpoint address.")
  | some _ => do
      let emptyCpu ← Config.getCpu packageCount coresPerPackage threadsPerCore
      .ok
        { instanceCtx
          emptyCpu
          metadata := initSysCoresData sysCoreIds sysCoresUsage sysCoresHardIsolate }

/-- `__natural2original_indexing` -/
def natural2originalIndexing (a : GrpcRemoteIsolationAllocator) : OrderedDict Nat Nat :=
  a.emptyCpu.getNaturalIndexing2OriginalIndexing

/-- `{v: k for k, v in self.__natural2original_indexing.items()}` -/
def original2naturalIndexing (a : GrpcRemoteIsolationAllocator) : OrderedDict Nat Nat :=
  OrderedDict.ofPairs (a.natural2originalIndexing.entries.map Prod.swap)

/-- `table[i]` -/
def lookup (table : OrderedDict Nat Nat) (i : Nat) : Except PyError Nat :=
  match table.get? i with
  | none => .error (.keyError (toString i))
  | some j => .ok j

/-! ## Encoding -/

/-- The claimed threads of a core. -/
def buildThreads (table : OrderedDict Nat Nat) : List Thread → Except PyError (List Pb.Thread)
  | [] => .ok []
  | t :: ts =>
      if t.workloadIds.length > 0 then do
        let natural ← lookup table t.id
        let id ← Pb.uint32 natural
        let threads ← buildThreads table ts
        .ok ({ id, taskIds := t.workloadIds } :: threads)
      else buildThreads table ts

/-- The cores of a package that have a claimed thread. -/
def buildCores (table : OrderedDict Nat Nat) : List Core → Except PyError (List Pb.Core)
  | [] => .ok []
  | c :: cs => do
      let threads ← buildThreads table c.getThreads
      if threads.length > 0 then
        let id ← Pb.uint32 c.id
        let cores ← buildCores table cs
        .ok ({ id, threads } :: cores)
      else buildCores table cs

/-- The messages for the packages, with the cores of each. -/
def buildPackages (table : OrderedDict Nat Nat) : List Package → Except PyError (List Pb.Package)
  | [] => .ok []
  | p :: ps => do
      let cores ← buildCores table p.getCores
      let id ← Pb.uint32 p.id
      let numCores ← Pb.uint32 p.getCores.length
      let packages ← buildPackages table ps
      .ok ({ id, numCores, cores } :: packages)

/-- `threads_per_core` as the loops leave it: the number of threads of the last core. -/
def threadsPerCore (cpu : Cpu) : Nat :=
  ((cpu.getPackages.flatMap Package.getCores).getLast?.map (fun c => c.getThreads.length)).getD 0

/-- `__build_base_req(cpu)` -/
def buildBaseReq (a : GrpcRemoteIsolationAllocator) (cpu : Cpu) :
    Except PyError Pb.IsolationRequest := do
  let packages ← buildPackages a.original2naturalIndexing cpu.getPackages
  let threadsPerCore ← Pb.uint32 (threadsPerCore cpu)
  .ok
    { layout := { threadsPerCore, packages }
      instanceContext := a.instanceCtx
      metadata := a.metadata }

/-! ## Decoding -/

/-- The loop over `response.cpusets`: the allocations, and the workloads of each thread id. -/
def deserCpusets (table : OrderedDict Nat Nat) :
    List (WorkloadId × Pb.Cpuset) → OrderedDict Nat (List WorkloadId) →
      Except PyError (List WorkloadAllocateResponse × OrderedDict Nat (List WorkloadId))
  | [], id2workloads => .ok ([], id2workloads)
  | (wid, cpuset) :: rest, id2workloads => do
      let threadIds ← cpuset.threadIds.mapM (fun tid => lookup table tid.toNat)
      let war : WorkloadAllocateResponse :=
        { workloadId := wid
          threadIds := threadIds
          cpuShares := cpuset.cfsTunables.shares.toNat
          cpuQuota := cpuset.cfsTunables.quotaUs.toInt
          memoryMigrate := cpuset.cpusetTunables.memoryMigrate
          memorySpreadPage := cpuset.cpusetTunables.memorySpreadPage
          memorySpreadSlab := cpuset.cpusetTunables.memorySpreadSlab }
      let id2workloads := threadIds.foldl
        (fun d tid => d.insert tid ((d.get? tid).getD [] ++ [wid])) id2workloads
      let (waResponses, id2workloads) ← deserCpusets table rest id2workloads
      .ok (war :: waResponses, id2workloads)

/-- The claims of one thread: `for wid in id2workloads.get(thread.get_id(), None)`. -/
def claimWorkloads (id2workloads : OrderedDict Nat (List WorkloadId)) (t : Thread) : Thread :=
  match id2workloads.get? t.id with
  | none => t
  | some workloads => workloads.foldl Thread.claim t

/-- `__deser(response)` -/
def deser {Rng : Type} (a : GrpcRemoteIsolationAllocator) (ambient : Ambient Rng)
    (response : Pb.IsolationResponse) : Except PyError AllocateResponse := do
  let (waResponses, id2workloads) ←
    deserCpusets a.natural2originalIndexing response.cpusets.entries OrderedDict.empty
  let newCpu := a.emptyCpu.mapThreadsIdx (fun _ t => claimWorkloads id2workloads t)
  .ok (allocateResponse ambient newCpu waResponses getName OrderedDict.empty)

end GrpcRemoteIsolationAllocator

end TitusIsolate
