import TitusIsolate.Api.Status
import TitusIsolate.Cgroup.Cpuset
import TitusIsolate.Model.Config

/-!
# Responses as dictionaries

A response is handed over as a dictionary of dictionaries and lists. Encoders and decoders
name the keys on their own: what one writes under `packages` the other reads under
`packages`. The metadata is passed on as it is, whatever its values are.
-/

namespace TitusIsolate

/-! ## Values in dictionaries -/

/-- A value of the kinds that the codecs look into, or any other. -/
inductive PyValue (α : Type) where
  | int (n : Int)
  | bool (b : Bool)
  | str (s : String)
  | list (xs : List (PyValue α))
  | dict (entries : List (String × PyValue α))
  | obj (x : α)

namespace PyValue

variable {α : Type}

/-- `value[key]` -/
def getItem (key : String) : PyValue α → Except PyError (PyValue α)
  | dict entries =>
      match entries.lookup key with
      | none => .error (.keyError key)
      | some v => .ok v
  | int _ => .error (.exception "'int' object is not subscriptable")
  | bool _ => .error (.exception "'bool' object is not subscriptable")
  | str _ => .error (.exception "string indices must be integers")
  | list _ => .error (.exception "list indices must be integers or slices, not str")
  | obj _ => .error (.exception "object is not subscriptable")

/-- `value.get(key, default)` -/
def get (value : PyValue α) (key : String) (default : PyValue α) : Except PyError (PyValue α) :=
  match value with
  | dict entries => .ok ((entries.lookup key).getD default)
  | _ => .error (.exception "object has no attribute 'get'")

/-- `for x in value` -/
def iter : PyValue α → Except PyError (List (PyValue α))
  | list xs => .ok xs
  | str s => .ok (s.toList.map (fun c => str (String.singleton c)))
  | dict entries => .ok (entries.map (fun e => str e.1))
  | int _ => .error (.exception "'int' object is not iterable")
  | bool _ => .error (.exception "'bool' object is not iterable")
  | obj _ => .error (.exception "object is not iterable")

/-- `int(value)` -/
def toInt : PyValue α → Except PyError Int
  | int n => .ok n
  | bool b => .ok (if b then 1 else 0)
  | str s => pyInt s.toList
  | _ => .error (.exception "int() argument must be a string, a bytes-like object or a number")

/-! The program takes over an id, a number or a flag as it finds it. Here a field has the type
that the model gives it, and a value of another type is refused. -/

/-- What is raised for such a value. -/
def wrongType : PyError := .exception "a value of another type"

/-- A field that is a text. -/
def asStr : PyValue α → Except PyError String
  | str s => .ok s
  | _ => .error wrongType

/-- A field that is a number. -/
def asInt : PyValue α → Except PyError Int
  | int n => .ok n
  | _ => .error wrongType

/-- A field that is an id or a count. -/
def asNat : PyValue α → Except PyError Nat
  | int n => if 0 ≤ n then .ok n.toNat else .error wrongType
  | _ => .error wrongType

/-- A field that is a flag. -/
def asBool : PyValue α → Except PyError Bool
  | bool b => .ok b
  | _ => .error wrongType

/-- A field that is a dictionary. -/
def asDict : PyValue α → Except PyError (OrderedDict String (PyValue α))
  | dict entries => .ok (OrderedDict.ofPairs entries)
  | _ => .error wrongType

end PyValue

open PyValue

variable {α : Type}

/-! ## The CPU -/

/-- `t.get_workload_ids()` -/
def Thread.workloadIdList (t : Thread) : PyValue α := .list (t.workloadIds.map .str)

/-- A thread in `to_dict()`. -/
def Thread.toDict (t : Thread) : PyValue α :=
  .dict [("id", .int t.id), ("workload_id", t.workloadIdList)]

/-- `to_dict()` -/
def Core.toDict (c : Core) : PyValue α :=
  .dict [("id", .int c.id), ("threads", .list (c.getThreads.map Thread.toDict))]

/-- `to_dict()` -/
def Package.toDict (p : Package) : PyValue α :=
  .dict [("id", .int p.id), ("cores", .list (p.getCores.map Core.toDict))]

/-- `to_dict()` -/
def Cpu.toDict (cpu : Cpu) : PyValue α :=
  .dict [("packages", .list (cpu.getPackages.map Package.toDict))]

/-- `to_array()` -/
def Cpu.toArray (cpu : Cpu) : PyValue α :=
  .list (cpu.getPackages.map (fun p => .list (p.getCores.map (fun c =>
    .list (c.getThreads.map Thread.workloadIdList)))))

/-- `Thread(processor_id)` -/
def Thread.new (processorId : Int) : Except PyError Thread :=
  if processorId < 0 then .error (.valueError "Thread processor ids must be non-negative.")
  else .ok (Thread.ofId processorId.toNat)

/-- The innermost loop of `parse_cpu`. -/
def parseThread (t : PyValue α) : Except PyError Thread := do
  let processorId ← (← t.getItem "id").toInt
  let thread ← Thread.new processorId
  let workloadIds ← (← (← t.getItem "workload_id").iter).mapM asStr
  .ok (workloadIds.foldl Thread.claim thread)

/-- The core that `parse_cpu` makes of an entry of `cores`. -/
def parseCore (c : PyValue α) : Except PyError Core := do
  let threads ← (← (← c.getItem "threads").iter).mapM parseThread
  Core.new (← (← c.getItem "id").asNat) threads

/-- The package that `parse_cpu` makes of an entry of `packages`. -/
def parsePackage (p : PyValue α) : Except PyError Package := do
  let cores ← (← (← p.getItem "cores").iter).mapM parseCore
  Package.new (← (← p.getItem "id").asNat) cores

/-- `parse_cpu(cpu_dict)` -/
def parseCpu (cpuDict : PyValue α) : Except PyError Cpu := do
  let packages ← (← (← cpuDict.getItem "packages").iter).mapM parsePackage
  Cpu.new packages

/-! ## Workload allocations -/

/-- `WORKLOAD_ID_KEY` -/
def workloadIdKey : String := "workload_id"

/-- `CPU_QUOTA_KEY` -/
def cpuQuotaKey : String := "cpu_quota"

/-- `CPU_SHARES_KEY` -/
def cpuSharesKey : String := "cpu_shares"

/-- `CPU_THREAD_IDS_KEY` -/
def cpuThreadIdsKey : String := "cpu_thread_ids"

/-- `MEMORY_MIGRATE` -/
def memoryMigrateKey : String := "memory_migrate"

/-- `MEMORY_SPREAD_PAGE` -/
def memorySpreadPageKey : String := "memory_spread_page"

/-- `MEMORY_SPREAD_SLAB` -/
def memorySpreadSlabKey : String := "memory_spread_slab"

/-- The default of the three memory flags. -/
def defaultMemoryFlag : Bool := false

/-- `to_dict()` -/
def WorkloadAllocateResponse.toDict (a : WorkloadAllocateResponse) : PyValue α :=
  .dict [(workloadIdKey, .str a.workloadId), (cpuQuotaKey, .int a.cpuQuota),
    (cpuSharesKey, .int a.cpuShares),
    (cpuThreadIdsKey, .list (a.threadIds.map (fun (i : Nat) => .int i))),
    (memoryMigrateKey, .bool a.memoryMigrate), (memorySpreadPageKey, .bool a.memorySpreadPage),
    (memorySpreadSlabKey, .bool a.memorySpreadSlab)]

/-- `deserialize_workload_response(body)` -/
def deserializeWorkloadResponse (body : PyValue α) : Except PyError WorkloadAllocateResponse := do
  let workloadId ← (← body.getItem workloadIdKey).asStr
  let threadIds ← (← (← body.getItem cpuThreadIdsKey).iter).mapM asNat
  let cpuShares ← (← body.getItem cpuSharesKey).asInt
  let cpuQuota ← (← body.getItem cpuQuotaKey).asInt
  let memoryMigrate ← (← body.get memoryMigrateKey (.bool defaultMemoryFlag)).asBool
  let memorySpreadPage ← (← body.get memorySpreadPageKey (.bool defaultMemoryFlag)).asBool
  let memorySpreadSlab ← (← body.get memorySpreadSlabKey (.bool defaultMemoryFlag)).asBool
  .ok { workloadId, threadIds, cpuShares, cpuQuota, memoryMigrate, memorySpreadPage,
        memorySpreadSlab }

/-! ## Responses -/

/-- `CPU` -/
def cpuKey : String := "cpu"

/-- `WORKLOAD_ALLOCATIONS` -/
def workloadAllocationsKey : String := "workload_allocations"

/-- `CPU_ARRAY` -/
def cpuArrayKey : String := "cpu_array"

/-- `METADATA` -/
def metadataKey : String := "metadata"

/-- `TITUS_ISOLATE_CELL_HEADER` -/
def titusIsolateCellHeader : String := "X-Titus-Isolate-Cell"

namespace AllocateResponse

/-- `AllocateResponse(cpu, workload_allocations, cpu_allocator_name, metadata)`, for metadata of
any values, in a process with the given `TITUS_TASK_ID`. -/
def new {V : Type} (str : String → V) (titusTaskId : Option String) (cpu : Cpu)
    (workloadAllocations : List WorkloadAllocateResponse) (cpuAllocatorName : V)
    (metadata : Option (OrderedDict String V)) : AllocateResponse V :=
  let metadata := (metadata.getD OrderedDict.empty).insert cpuAllocatorKey cpuAllocatorName
  let metadata :=
    if allocatorServiceTaskIdKey ∈ metadata.keys then metadata
    else metadata.insert allocatorServiceTaskIdKey
      (str (titusTaskId.getD unknownAllocatorServiceTaskId))
  { cpu, workloadAllocations, metadata }

/-- Metadata of texts is a case of it. -/
theorem new_eq_allocateResponse {Rng : Type} (ambient : Ambient Rng) (cpu : Cpu)
    (allocs : List WorkloadAllocateResponse) (name : String) (metadata : OrderedDict String String) :
    new id ambient.titusTaskId cpu allocs name (some metadata)
      = allocateResponse ambient cpu allocs name metadata := rfl

/-- `to_dict()` -/
def toDict (r : AllocateResponse (PyValue α)) : PyValue α :=
  .dict [(cpuKey, r.cpu.toDict),
    (workloadAllocationsKey, .list (r.workloadAllocations.map WorkloadAllocateResponse.toDict)),
    (cpuArrayKey, r.cpu.toArray), (metadataKey, .dict r.metadata.entries)]

end AllocateResponse

/-- `deserialize_response(headers, body)`, given `headers.get`. -/
def deserializeResponse (titusTaskId : Option String) (headers : String → Option String)
    (body : PyValue α) : Except PyError (AllocateResponse (PyValue α)) := do
  let cell := (headers titusIsolateCellHeader).getD unknownCell
  let cpu ← parseCpu (← body.getItem cpuKey)
  let metadata ← (← body.getItem metadataKey).asDict
  let metadata := metadata.insert cellKey (.str cell)
  let cpuAllocatorName ← getKey metadata cpuAllocatorKey
  let workloadAllocations ←
    (← (← body.getItem workloadAllocationsKey).iter).mapM deserializeWorkloadResponse
  .ok (AllocateResponse.new .str titusTaskId cpu workloadAllocations cpuAllocatorName
    (some metadata))

end TitusIsolate
