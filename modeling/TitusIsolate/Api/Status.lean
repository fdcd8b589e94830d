import TitusIsolate.Allocate.Allocator

/-!
# The isolate endpoint

The container runtime asks `/isolate/<workload_id>` before it starts a container. One
lock serialises the callers. It is taken with a timeout and given back by hand on the
two paths that answer; between the two the call asks the workload manager, and records
how long the workload waited under tags that name the allocator and its cell.
-/

namespace TitusIsolate

/-! ## The tags of a metric -/

/-- `CELL` -/
def cellKey : String := "cell"

/-- `UNKNOWN_CELL` -/
def unknownCell : String := "unknown_cell"

/-- `UNKNOWN_CPU_ALLOCATOR` -/
def unknownCpuAllocator : String := "UNKNOWN_CPU_ALLOCATOR"

/-- The classes of `CPU_ALLOCATOR_NAME_TO_CLASS_MAP`. -/
inductive AllocatorClass where
  | greedy
  | naive
  | noop
  | grpcRemote
  deriving DecidableEq, Repr

namespace AllocatorClass

/-- The name the configuration knows the class by. -/
def configName : AllocatorClass → String
  | greedy => "GREEDY"
  | naive => "NAIVE"
  | noop => "NOOP"
  | grpcRemote => "GRPC_REMOTE"

/-- `__class__.__name__`, which is what `get_name` answers. -/
def name : AllocatorClass → String
  | greedy => "GreedyCpuAllocator"
  | naive => "NaiveCpuAllocator"
  | noop => "NoopCpuAllocator"
  | grpcRemote => "GrpcRemoteIsolationAllocator"

/-- `CPU_ALLOCATORS`, in its order. -/
def all : List AllocatorClass := [greedy, naive, noop, grpcRemote]

/-- The class `get_allocator(allocator_str)` builds: the remote one for any other name. -/
def ofConfig (allocatorStr : Option String) : AllocatorClass :=
  (all.find? (fun c => some c.configName = allocatorStr)).getD grpcRemote

end AllocatorClass

/-- What the config manager and the services behind it answer while a cell is looked up. -/
structure CellSources where
  /-- `config_manager.get_cached_str(CPU_ALLOCATOR)` -/
  primaryAllocStr : Except PyError (Option String)
  /-- Calling the constructor of a class. The remote one reads the endpoint, opens a channel
  and asks Kubernetes for the node. -/
  construct : AllocatorClass → Except PyError Unit
  /-- `get_http_cell_name(config_manager)` -/
  getHttpCellName : Except PyError String
  /-- `get_grpc_cell_name(config_manager)` -/
  getGrpcCellName : Except PyError String

namespace CellSources

/-- `is_primary_allocator_grpc(config_manager)` -/
def isPrimaryAllocatorGrpc (c : CellSources) : Except PyError Bool :=
  match c.primaryAllocStr with
  | .error e => .error e
  | .ok primaryAllocStr =>
      let cls := AllocatorClass.ofConfig primaryAllocStr
      match c.construct cls with
      | .error e => .error e
      | .ok () => .ok (cls.name == AllocatorClass.grpcRemote.name)

/-- What `get_cell_name` answers once the primary allocator is known: the `try` covers
this part only. -/
def fetchCellName (c : CellSources) (isGrpc : Bool) : String :=
  match if isGrpc then c.getGrpcCellName else c.getHttpCellName with
  | .ok cellName => cellName
  | .error _ => unknownCell

end CellSources

/-- `get_cell_name()` -/
def getCellName : Option CellSources → Except PyError String
  | none => .ok unknownCell
  | some c => c.isPrimaryAllocatorGrpc.map c.fetchCellName

/-- What `get_tags` finds in the process. -/
structure TagSources where
  /-- `os.environ.get('EC2_INSTANCE_ID')` -/
  ec2InstanceId : Option String
  /-- `wm.get_allocator_name()`, when there is a workload manager. -/
  allocatorName : Option String
  /-- The config manager, when there is one. -/
  configManager : Option CellSources

/-- `MetricsManager.get_tags()` -/
def getTags (m : TagSources) : Except PyError (OrderedDict String String) :=
  let tags := match m.ec2InstanceId with
    | none => OrderedDict.empty
    | some node => (OrderedDict.empty.insert "node" node).insert "nf.node" node
  let tags := tags.insert cpuAllocatorKey (m.allocatorName.getD unknownCpuAllocator)
  (getCellName m.configManager).map (fun cell => tags.insert cellKey cell)

/-- **When the tags cannot be had**: the name of the primary allocator cannot be read, or
an instance of it cannot be built. Failing to fetch the cell itself is covered. -/
theorem getTags_error_iff {m : TagSources} {e : PyError} :
    getTags m = .error e ↔ ∃ c, m.configManager = some c ∧ c.isPrimaryAllocatorGrpc = .error e := by
  unfold getTags
  cases hc : m.configManager with
  | none => simp [getCellName, Except.map]
  | some c =>
    cases hg : c.isPrimaryAllocatorGrpc with
    | error e' => simp [getCellName, hg, Except.map]
    | ok isGrpc => simp [getCellName, hg, Except.map]

/-! ## The endpoint -/

/-- A metrics manager and the registry it records in. -/
structure Metrics (Time : Type) where
  tags : TagSources
  /-- `registry.distribution_summary(ISOLATE_LATENCY_KEY, tags).record(duration)` -/
  record : OrderedDict String String → Time → Except PyError Unit

/-- One call of `isolate_workload`, with what it meets. -/
structure StatusCall (Time : Type) where
  workloadId : WorkloadId
  /-- `get_workload_manager().is_isolated(workload_id)` -/
  isIsolated : Except PyError Bool
  /-- The global `metrics_manager`. -/
  metricsManager : Option (Metrics Time)
  /-- The clock after the lock is taken, and after `is_isolated` has answered. -/
  startTime : Time
  stopTime : Time

/-- The globals of the module: `__isolate_lock` and `__isolate_latency`. -/
structure StatusState (Time : Type) where
  locked : Bool
  isolateLatency : OrderedDict WorkloadId Time

/-- What Flask is handed: the body before `json.dumps`, the code and the headers. -/
structure StatusResponse where
  body : String × WorkloadId
  code : Nat
  headers : List (String × String)
  deriving DecidableEq, Repr

/-- The answer under a key of the body. -/
def statusResponse (key : String) (workloadId : WorkloadId) (code : Nat) : StatusResponse where
  body := (key, workloadId)
  code := code
  headers := [("ContentType", "application/json")]

namespace StatusState

variable {Time : Type} [Sub Time]

/-- The state the module is loaded in. -/
def init : StatusState Time := ⟨false, OrderedDict.empty⟩

/-- The recording of an isolated workload's latency. The first time the workload was asked
for is forgotten before the tags are asked for. -/
def recordLatency (s : StatusState Time) (call : StatusCall Time) :
    Except PyError Unit × StatusState Time :=
  match call.metricsManager with
  | none => (.ok (), s)
  | some metrics =>
      let startTime := (s.isolateLatency.get? call.workloadId).getD call.startTime
      let s := { s with isolateLatency := s.isolateLatency.erase call.workloadId }
      match getTags metrics.tags with
      | .error e => (.error e, s)
      | .ok tags => (metrics.record tags (call.stopTime - startTime), s)

/-- `isolate_workload(workload_id)` -/
def isolateWorkload (s : StatusState Time) (call : StatusCall Time) :
    Except PyError StatusResponse × StatusState Time :=
  -- `acquire` gives up after its timeout
  if s.locked then (.ok (statusResponse "workload_id" call.workloadId 404), s)
  else
    let s := { s with locked := true }
    match call.isIsolated with
    -- the two calls below can raise with the lock taken, and nothing gives it back
    | .error e => (.error e, s)
    | .ok true =>
        match s.recordLatency call with
        | (.error e, s) => (.error e, s)
        | (.ok (), s) =>
            (.ok (statusResponse "workload_id" call.workloadId 200), { s with locked := false })
    | .ok false =>
        let isolateLatency :=
          if call.workloadId ∈ s.isolateLatency.keys then s.isolateLatency
          else s.isolateLatency.insert call.workloadId call.stopTime
        (.ok (statusResponse "unknown_workload_id" call.workloadId 404),
          { locked := false, isolateLatency := isolateLatency })

/-- The globals after one call. -/
def step (s : StatusState Time) (call : StatusCall Time) : StatusState Time :=
  (s.isolateWorkload call).2

end StatusState

end TitusIsolate
